import PaymentScheduler.System.Columns

/-!
# The two computations of the next fire

`compute_next_fire` of the API raises for a timezone that `pytz` does not know, and `_next_fire` of
the scheduler goes on with UTC. Both agree on the subscriptions whose timezone is known. A POST
brings one; a PATCH may bring any string.

- `Subscription.firesAlike_iff`: one subscription with a valid expression.
- `Sys.Expressions.step`: the expressions that are stored are valid.
- `Sys.step_zoned_iff`: one step leaves known timezones iff its transaction does.
- `Sys.next_fires_agree_iff`: every run of the system.
-/

namespace PaymentScheduler

/-- `pytz` knows the timezone. -/
def Env.Knows (env : Env) (timezone : String) : Prop := (env.pytzTimezone timezone).isSome = true

/-- `croniter` has a next time for every valid expression. -/
def Env.Answers (env : Env) : Prop :=
  ∀ expression, env.isValid expression = true →
    ∀ zone t, (env.getNext expression zone t).isSome = true

/-- At every time the API and the scheduler compute the same instant, in the stored timezone. -/
def Subscription.FiresAlike (env : Env) (b : Subscription) : Prop :=
  env.Knows b.timezone ∧ ∀ now, ∃ f,
    Api.computeNextFire env now b.cronExpression b.timezone = some f ∧
      Scheduler.nextFire env now b = some f

theorem Subscription.firesAlike_iff {env : Env} (hcron : env.Answers) {b : Subscription}
    (hb : env.isValid b.cronExpression = true) : b.FiresAlike env ↔ env.Knows b.timezone := by
  refine and_iff_left_of_imp fun hzone now => ?_
  obtain ⟨zone, hz⟩ := Option.isSome_iff_exists.mp hzone
  obtain ⟨f, hf⟩ := Option.isSome_iff_exists.mp (hcron _ hb zone now)
  refine ⟨f, ?_, ?_⟩
  · rw [Api.computeNextFire, hz, Option.bind_some, hf]
  · rw [Scheduler.nextFire, hz, Option.getD_some, hf]

namespace Column

/-- `cron_expression`. -/
def cronExpression : Column String where
  get b := b.cronExpression
  patch c := c.cronExpression
  advance b a := by cases a <;> rfl
  countFailure b now := by
    unfold Subscription.countFailure
    split <;> rfl
  succeed b := rfl
  resume b nextFire := rfl
  change b c := rfl
  delete := rfl

/-- `timezone`. -/
def timezone : Column String where
  get b := b.timezone
  patch c := c.timezone
  advance b a := by cases a <;> rfl
  countFailure b now := by
    unfold Subscription.countFailure
    split <;> rfl
  succeed b := rfl
  resume b nextFire := rfl
  change b c := rfl
  delete := rfl

end Column

namespace Api

variable {env : Env} {db : Db} {now : Time} {st st' : State} {a : Action}

/-- A POST that stores a subscription has passed the checks of the body. -/
theorem step_created {b : Subscription}
    (h : step env db now st a = some (st', some (.createSubscription b))) :
    env.isValid b.cronExpression = true ∧ env.Knows b.timezone := by
  obtain ⟨body, id, rfl, hb⟩ := step_creating h
  have hvalid : createValid env body = true := by
    by_contra hinvalid
    cases st with
    | idle => simp [step, begin, hinvalid] at h
    | _ => cases h
  obtain ⟨n, hn, rfl⟩ := Option.map_eq_some_iff.mp hb
  obtain ⟨zone, hz, -⟩ := Option.bind_eq_some_iff.mp hn
  simp only [createValid, decide_eq_true_eq] at hvalid
  exact ⟨hvalid.2.2.1, Option.isSome_iff_exists.mpr ⟨zone, hz⟩⟩

/-- A PATCH that goes on has passed the check of the expression. -/
theorem step_patched {t : Option Txn} {id : UUID} {c : SubscriptionChanges} {status : Nat}
    (h : step env db now st a = some (.updating id c status, t)) {expression : String}
    (hc : c.cronExpression = some expression) : env.isValid expression = true := by
  obtain ⟨b, body, rfl, hb, hch⟩ | ⟨rfl, rfl⟩ := step_updating h
  · rw [(changesOf_eq hch).cronExpression] at hc
    by_contra hinvalid
    cases st with
    | idle => simp [step, begin, hc, hinvalid] at h
    | _ => cases h
  · cases hc

end Api

/-- The timezone that the PATCH of an action brings. -/
def Action.patchTimezone? : Action → Option String
  | .request _ (.begin (.update _ body)) => body.timezone
  | _ => none

/-- A PATCH of `b` writes a timezone that `pytz` knows, or none. -/
def Txn.KnowsZone (env : Env) (b : Subscription) : Txn → Prop
  | updateSubscription id c => id = b.id → ∀ zone, c.timezone = some zone → env.Knows zone
  | _ => True

namespace Sys

variable {env : Env} {s s' : Sys} {a : Action}

/-! ## The expressions -/

/-- The expressions that are stored, and those that requests are going to store, are valid. -/
structure Expressions (env : Env) (s : Sys) : Prop where
  subs : ∀ {x b}, s.db.sub? x = some b → env.isValid b.cronExpression = true
  updates : ∀ {r id c status e}, s.requests r = .updating id c status →
    c.cronExpression = some e → env.isValid e = true

theorem Expressions.init : Expressions env Sys.init := by
  constructor
  · intro x b h
    cases h
  · intro r id c status e h
    cases h

theorem Expressions.step (hE : Expressions env s) (h : s.step env a = some s') :
    Expressions env s' := by
  refine ⟨fun {x b} hb => ?_, fun {r id c status e} hup hc => ?_⟩
  · obtain ⟨-, hdb⟩ | ⟨t, ht, hc⟩ := step_db h
    · rw [hdb] at hb
      exact hE.subs hb
    · obtain ⟨b₀, hb₀, rfl⟩ | ⟨-, rfl⟩ := Txn.sub?_cases hc hb
      · show env.isValid (Column.cronExpression.get _) = true
        obtain he | ⟨id, c, e, rfl, hd, he⟩ := Column.cronExpression.setSub_cases s.db t b₀
        · rw [he]
          exact hE.subs hb₀
        · obtain ⟨r, b', st, rfl, hst⟩ := request_of_txn? ht rfl
          obtain ⟨status, hup⟩ := Api.step_update hst
          rw [he]
          exact hE.updates hup hd
      · obtain ⟨r, b', st, rfl, hst⟩ := request_of_txn? ht rfl
        exact (Api.step_created hst).1
  · obtain hold | ⟨b', t, rfl, hst⟩ := request_cases h r
    · rw [hold] at hup
      exact hE.updates hup hc
    · rw [hup] at hst
      exact Api.step_patched hst hc

/-! ## The timezones -/

/-- The stored timezones are known. -/
def Zoned (env : Env) (db : Db) : Prop := ∀ x b, db.sub? x = some b → env.Knows b.timezone

/-- The transaction writes no timezone that is not known. -/
def KeepsZones (env : Env) (db : Db) (t : Txn) : Prop :=
  ∀ x b, db.sub? x = some b → t.KnowsZone env b

/-- One transaction on one subscription. -/
theorem knowsZone_iff (db : Db) {t : Txn} {b : Subscription} (hb : env.Knows b.timezone) :
    t.KnowsZone env b ↔ env.Knows (t.setSub db b).timezone := by
  have hset := Column.timezone.setSub_cases db t b
  cases t with
  | updateSubscription id c =>
    simp only [Txn.KnowsZone, Txn.setSub]
    by_cases hid : b.id = id
    · rw [if_pos hid, forall_prop_of_true hid.symm]
      cases hc : c.timezone with
      | none => exact iff_of_true (fun zone h => by cases h) (by simpa [Subscription.change, hc])
      | some zone => simp [Subscription.change, hc]
    · rw [if_neg hid]
      exact iff_of_true (fun h => absurd h.symm hid) hb
  | _ =>
    refine iff_of_true trivial ?_
    show env.Knows (Column.timezone.get _)
    obtain he | ⟨id, c, zone, hu, -⟩ := hset
    · rw [he]
      exact hb
    · cases hu

theorem step_zoned_iff (hZ : Zoned env s.db) (h : s.step env a = some s') :
    OnCommit env (KeepsZones env) s a s' ↔ Zoned env s'.db := by
  refine onCommit_iff h hZ fun t ht hc => ⟨fun hk x b hb => ?_, fun hZ' x b hb => ?_⟩
  · obtain ⟨b₀, hb₀, rfl⟩ | ⟨-, rfl⟩ := Txn.sub?_cases hc hb
    · exact (knowsZone_iff s.db (hZ _ _ hb₀)).mp (hk _ _ hb₀)
    · obtain ⟨r, b', st, rfl, hst⟩ := request_of_txn? ht rfl
      exact (Api.step_created hst).2
  · exact (knowsZone_iff s.db (hZ _ _ hb)).mpr (hZ' _ _ (Txn.sub?_set hc hb))

/-- Where every PATCH brings a known timezone, known ones are stored. -/
theorem zones_kept {as : List Action}
    (ha : ∀ a ∈ as, ∀ zone, a.patchTimezone? = some zone → env.Knows zone) :
    Lts.Along (step env) (OnCommit env (KeepsZones env)) init as := by
  refine Lts.Along.of_inv (I := Column.timezone.Kept env.Knows)
    (P := fun _ a _ => ∀ zone, a.patchTimezone? = some zone → env.Knows zone)
    (fun {s a s'} hI ha h => ?_) (fun {s a s'} hI _ _ t ht x b hb => ?_) .init
    (Lts.along_of_mem ha)
  · refine hI.step ⟨?_, ?_⟩ h
    · rintro r body id b rfl hb
      obtain ⟨n, hn, rfl⟩ := Option.map_eq_some_iff.mp hb
      obtain ⟨zone, hz, -⟩ := Option.bind_eq_some_iff.mp hn
      exact Option.isSome_iff_exists.mpr ⟨zone, hz⟩
    · rintro r id body b c zone rfl hc hd
      refine ha zone ?_
      rwa [Action.patchTimezone?, ← (Api.changesOf_eq hc).timezone]
  · cases t with
    | updateSubscription id c =>
      rintro - zone hc
      obtain ⟨r, b', st, rfl, hst⟩ := request_of_txn? ht rfl
      obtain ⟨status, hup⟩ := Api.step_update hst
      exact hI.updates hup hc
    | _ => trivial

/-- In every run of the system the API and the scheduler compute the same next fire for every
subscription in every state iff no PATCH writes a timezone that `pytz` does not know; and this is so
where no PATCH brings one. -/
theorem next_fires_agree_iff (env : Env) (hcron : env.Answers) (as : List Action) :
    (Lts.Along (step env) (OnCommit env (KeepsZones env)) init as ↔
      Lts.Always (step env) (fun s => ∀ b ∈ s.db.subscriptions, b.FiresAlike env) init as) ∧
    ((∀ a ∈ as, ∀ zone, a.patchTimezone? = some zone → env.Knows zone) →
      Lts.Along (step env) (OnCommit env (KeepsZones env)) init as) := by
  have hstep : ∀ {s a s'}, Owned s ∧ Expressions env s → step env s a = some s' →
      Owned s' ∧ Expressions env s' := fun hI h => ⟨hI.1.step h, hI.2.step h⟩
  have hrows {s : Sys} (hI : Owned s ∧ Expressions env s) :
      Zoned env s.db ↔ ∀ b ∈ s.db.subscriptions, b.FiresAlike env := by
    constructor
    · intro h b hb
      have hb := hI.1.wf.sub?_mem.mp hb
      exact (Subscription.firesAlike_iff hcron (hI.2.subs hb)).mpr (h _ b hb)
    · exact fun h x b hb => (h b (Table.get?_mem hb)).1
  refine ⟨Lts.along_iff_always hstep (fun hI hQ h => ?_) ⟨Owned.init, Expressions.init⟩
    (fun b hb => by cases hb), zones_kept⟩
  rw [← hrows (hstep hI h)]
  exact step_zoned_iff ((hrows hI).mpr hQ) h

end Sys

namespace Demo

theorem env_answers : env.Answers := by
  intro expression hvalid zone t
  have he : expression = "* * * * *" := of_decide_eq_true hvalid
  simp [env, he]

/-- A PATCH of the timezone alone, to `zone`. -/
def rezoned (zone : String) : List Action :=
  [.advance start,
    .request 0 (.begin (.create (body policy) subId)),
    .request 1 (.begin (.update subId { timezone := some zone })),
    .request 1 .commit]

theorem rezoned_agree :
    Lts.Always (Sys.step env) (fun s => ∀ b ∈ s.db.subscriptions, b.FiresAlike env) Sys.init
      (rezoned "UTC") := by
  obtain ⟨hiff, hkept⟩ := Sys.next_fires_agree_iff env env_answers (rezoned "UTC")
  refine hiff.mp (hkept fun a ha zone hz => ?_)
  simp only [rezoned, List.mem_cons, List.not_mem_nil, or_false] at ha
  obtain rfl | rfl | rfl | rfl := ha <;> cases hz
  rfl

theorem rezoned_disagree :
    ¬ ∀ as s, Lts.run (Sys.step env) Sys.init as = some s →
      ∀ b ∈ s.db.subscriptions, b.FiresAlike env := by
  intro h
  have heval : ((Lts.run (Sys.step env) Sys.init (rezoned "Mars/Base")).any fun s =>
      s.db.subscriptions.any fun b => (env.pytzTimezone b.timezone).isNone) = true := by
    decide +kernel
  obtain ⟨s, hr, hp⟩ := Lts.exists_run heval
  obtain ⟨b, hb, hnone⟩ := List.any_eq_true.mp hp
  have hknown := (h _ s hr b hb).1
  rw [Env.Knows, Option.isNone_iff_eq_none.mp hnone] at hknown
  cases hknown

end Demo

end PaymentScheduler
