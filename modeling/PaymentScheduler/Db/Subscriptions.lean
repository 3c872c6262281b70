import PaymentScheduler.Db.Effect

/-!
# What a transaction does to a subscription

`Txn.setSub` is the row that a transaction makes of a subscription that is there: a scheduler
advances it, a success and a resume reset the counter, a dead letter counts, and a PATCH or DELETE
writes its changes.

- `sub?_set`, `sub?_new`, `sub?_cases`: the subscriptions after a transaction.
- `sub?_keep`: a transaction writes the subscriptions of `Txn.subs` only.
- `advanceAll_of_mem`: a batch advances a subscription by the write for it.
- `setSub_timing`, `setSub_retimes`: which transactions change when a subscription fires, and how.
- `Column`: a column that only requests write.
-/

namespace PaymentScheduler

namespace Subscription

/-- `_move_to_dlq` on the subscription: the counter, and then the status. -/
def countFailure (b : Subscription) (now : Time) : Subscription :=
  if b.consecutiveFailures + 1 ≥ consecutiveFailurePauseThreshold then
    { b with
      consecutiveFailures := b.consecutiveFailures + 1
      status := .paused
      pausedAt := some now }
  else { b with consecutiveFailures := b.consecutiveFailures + 1 }

/-- `resume_subscription` on the subscription. -/
def resume (b : Subscription) (nextFire : Time) : Subscription :=
  { b with
    status := .active
    pausedAt := none
    consecutiveFailures := 0
    nextFireAt := some nextFire }

@[simp] theorem advance_id (b : Subscription) (a : Advance) : (b.advance a).id = b.id := by
  cases a <;> rfl

@[simp] theorem countFailure_id (b : Subscription) (now : Time) :
    (b.countFailure now).id = b.id := by
  unfold countFailure
  split <;> rfl

/-- The counter update touches the columns of the failure only. -/
theorem countFailure_frame (b : Subscription) (now : Time) :
    (b.countFailure now).retryPolicy = b.retryPolicy ∧
      (b.countFailure now).paymentConfig = b.paymentConfig := by
  unfold countFailure
  split <;> exact ⟨rfl, rfl⟩

end Subscription

namespace Db

variable {db db' : Db} {x : UUID} {w : WindowWrite} {ws : List WindowWrite}

theorem insertRun_sub? {r : JobRun} (h : db.insertRun r = some db') : db'.sub? x = db.sub? x := by
  obtain ⟨rfl, -⟩ | ⟨rfl, -⟩ := insertRun_cases h <;> rfl

theorem createJobForSubscription_sub? (h : db.createJobForSubscription w = some db') :
    db'.sub? x = (db.updateSub w.subscriptionId fun b => b.advance w.advance).sub? x := by
  obtain ⟨db₁, rfl, hdb⟩ := createJobForSubscription_cases h
  rw [sub?_updateSub fun b => b.advance_id _, sub?_updateSub fun b => b.advance_id _]
  obtain ⟨rfl, -⟩ | ⟨-, hr⟩ := hdb
  · rfl
  · rw [insertRun_sub? hr]
    rfl

theorem sub?_countFailure {i : UUID} {now : Time} :
    (db.countFailure i now).sub? x =
      if x = i then (db.sub? x).map (·.countFailure now) else db.sub? x := by
  rw [Db.countFailure, sub?_updateSub, sub?_updateSub]
  · by_cases hx : x = i
    · simp only [if_pos hx, Option.map_map]
      rfl
    · simp only [if_neg hx]
  · exact fun _ => rfl
  · intro b
    split <;> rfl

/-- The row that a batch makes of a subscription. -/
def advanceAll (ws : List WindowWrite) (b : Subscription) : Subscription :=
  ws.foldl (fun b w => if b.id = w.subscriptionId then b.advance w.advance else b) b

theorem advanceAll_cons_of_eq {b : Subscription} (h : b.id = w.subscriptionId) :
    advanceAll (w :: ws) b = advanceAll ws (b.advance w.advance) := by
  simp only [advanceAll, List.foldl_cons, if_pos h]

theorem advanceAll_cons_of_ne {b : Subscription} (h : b.id ≠ w.subscriptionId) :
    advanceAll (w :: ws) b = advanceAll ws b := by
  simp only [advanceAll, List.foldl_cons, if_neg h]

theorem advanceAll_of_not_mem {b : Subscription} (h : b.id ∉ ws.map (·.subscriptionId)) :
    advanceAll ws b = b := by
  induction ws with
  | nil => rfl
  | cons w ws ih =>
    rw [List.map_cons, List.mem_cons, not_or] at h
    rw [advanceAll_cons_of_ne h.1, ih h.2]

/-- Where a batch has one write for the subscription, it advances by that one. -/
theorem advanceAll_of_mem {b : Subscription} (hnd : (ws.map (·.subscriptionId)).Nodup)
    (hw : w ∈ ws) (hb : b.id = w.subscriptionId) : advanceAll ws b = b.advance w.advance := by
  induction ws with
  | nil => cases hw
  | cons w' ws ih =>
    rw [List.map_cons, List.nodup_cons] at hnd
    rcases List.mem_cons.mp hw with rfl | hw
    · have hrest : (b.advance w.advance).id ∉ ws.map (·.subscriptionId) := by
        rw [b.advance_id, hb]
        exact hnd.1
      rw [advanceAll_cons_of_eq hb, advanceAll_of_not_mem hrest]
    · have hne : b.id ≠ w'.subscriptionId := by
        intro he
        refine hnd.1 ?_
        rw [← he, hb]
        exact List.mem_map_of_mem hw
      rw [advanceAll_cons_of_ne hne, ih hnd.2 hw]

/-- What each advance keeps, a batch keeps. -/
theorem advanceAll_keeps {P : Subscription → Prop} (hP : ∀ b a, P b → P (b.advance a))
    (ws : List WindowWrite) {b : Subscription} (h : P b) : P (advanceAll ws b) := by
  induction ws generalizing b with
  | nil => exact h
  | cons w ws ih =>
    by_cases he : b.id = w.subscriptionId
    · rw [advanceAll_cons_of_eq he]
      exact ih (hP b w.advance h)
    · rw [advanceAll_cons_of_ne he]
      exact ih h

/-- What an advance leaves as it is, a batch does. -/
theorem advanceAll_frame {δ : Type*} {f : Subscription → δ}
    (hf : ∀ b a, f (b.advance a) = f b) (ws : List WindowWrite) (b : Subscription) :
    f (advanceAll ws b) = f b :=
  advanceAll_keeps (P := fun b' => f b' = f b) (fun b' a h => (hf b' a).trans h) ws rfl

theorem schedule_sub? (h : db.schedule ws = some db') :
    db'.sub? x = (db.sub? x).map (advanceAll ws) := by
  induction ws generalizing db with
  | nil =>
    cases h
    rw [show advanceAll [] = id from rfl, Option.map_id, id]
  | cons w ws ih =>
    obtain ⟨db₁, h₁, h⟩ := Option.bind_eq_some_iff.mp h
    rw [ih h, createJobForSubscription_sub? h₁, sub?_updateSub fun b => b.advance_id _]
    cases hb : db.sub? x with
    | none => split <;> rfl
    | some b =>
      have hid : b.id = x := sub?_id hb
      by_cases hx : x = w.subscriptionId
      · have he : b.id = w.subscriptionId := hid.trans hx
        simp only [if_pos hx, Option.map_some, advanceAll_cons_of_eq he]
      · have hne : b.id ≠ w.subscriptionId := by rwa [hid]
        simp only [if_neg hx, Option.map_some, advanceAll_cons_of_ne hne]

end Db

namespace Txn

variable {db db' : Db} {t : Txn} {x : UUID} {b : Subscription}

/-- The row that a transaction makes of the subscription `b`. -/
def setSub (db : Db) (b : Subscription) : Txn → Subscription
  | persistSuccess k _ s =>
    if b.id = s ∧ db.key? k.jobRunId k.attempt = none then { b with consecutiveFailures := 0 }
    else b
  | moveToDlq e _ now => if b.id = e.subscriptionId then b.countFailure now else b
  | schedule ws => Db.advanceAll ws b
  | updateSubscription id c => if b.id = id then b.change c else b
  | resume id nextFire => if b.id = id then b.resume nextFire else b
  | _ => b

theorem sub?_set (h : t.apply db = some db') (hb : db.sub? x = some b) :
    db'.sub? x = some (t.setSub db b) := by
  have hid : b.id = x := Db.sub?_id hb
  subst hid
  cases t with
  | persistSuccess k run s =>
    simp only [setSub]
    obtain ⟨rfl, k₀, hk⟩ | ⟨rfl, hk, -⟩ := Db.persistSuccess_cases h
    · simp [hk, hb]
    · have hsub : ((db.addKey k).recordSuccess k run s).sub? b.id =
          (db.updateSub s fun b => { b with consecutiveFailures := 0 }).sub? b.id := rfl
      rw [hsub, Db.sub?_updateSub, hb]
      · simp only [hk, and_true]
        split <;> rfl
      · exact fun _ => rfl
  | scheduleRetry run error now next =>
    rw [Db.insertRun_sub? h]
    exact hb
  | moveToDlq e clearsWorker now =>
    rw [Db.moveToDlq_cases h, Db.sub?_countFailure, setSub]
    simp only [Db.sub?_addEntry, Db.sub?_updateRun, hb]
    split <;> rfl
  | insertAttempt next =>
    rw [Db.insertRun_sub? h]
    exact hb
  | schedule ws =>
    rw [Db.schedule_sub? h, hb]
    rfl
  | createSubscription y =>
    rw [(Db.insertSub_cases h).1, Db.sub?_addSub, hb]
    rfl
  | updateSubscription id c =>
    cases h
    rw [Db.sub?_updateSub, hb]
    · simp only [setSub]
      split <;> rfl
    · exact fun _ => rfl
  | resume id nextFire =>
    cases h
    rw [Db.resume, Db.sub?_updateSub, hb]
    · simp only [setSub, Subscription.resume]
      split <;> rfl
    · exact fun _ => rfl
  | produce j runId =>
    rw [Db.insertRun_sub? (Db.produce_cases h).2]
    exact hb
  | _ => cases h; exact hb

/-- A new subscription is the one of a POST request. -/
theorem sub?_new (h : t.apply db = some db') (hn : db.sub? x = none) (hb : db'.sub? x = some b) :
    t = .createSubscription b := by
  cases t with
  | persistSuccess k run s =>
    obtain ⟨rfl, -⟩ | ⟨rfl, -⟩ := Db.persistSuccess_cases h
    · rw [hn] at hb; cases hb
    · have hsub : ((db.addKey k).recordSuccess k run s).sub? x =
          (db.updateSub s fun b => { b with consecutiveFailures := 0 }).sub? x := rfl
      rw [hsub, Db.sub?_updateSub, hn] at hb
      · simp at hb
      · exact fun _ => rfl
  | scheduleRetry run error now next =>
    rw [Db.insertRun_sub? h] at hb
    exact absurd (hn.symm.trans hb) nofun
  | moveToDlq e clearsWorker now =>
    rw [Db.moveToDlq_cases h, Db.sub?_countFailure] at hb
    simp [hn] at hb
  | insertAttempt next =>
    rw [Db.insertRun_sub? h, hn] at hb
    cases hb
  | schedule ws =>
    rw [Db.schedule_sub? h, hn] at hb
    cases hb
  | createSubscription y =>
    rw [(Db.insertSub_cases h).1, Db.sub?_addSub, hn, Option.none_or] at hb
    split at hb <;> cases hb
    rfl
  | updateSubscription id c =>
    cases h
    rw [Db.sub?_updateSub, hn] at hb
    · simp at hb
    · exact fun _ => rfl
  | resume id nextFire =>
    cases h
    rw [Db.resume, Db.sub?_updateSub, hn] at hb
    · simp at hb
    · exact fun _ => rfl
  | produce j runId =>
    rw [Db.insertRun_sub? (Db.produce_cases h).2] at hb
    exact absurd (hn.symm.trans hb) nofun
  | _ => cases h; exact absurd (hn.symm.trans hb) nofun

/-- A subscription after a transaction: one of before, or the created one. -/
theorem sub?_cases (h : t.apply db = some db') (hb : db'.sub? x = some b) :
    (∃ b₀, db.sub? x = some b₀ ∧ b = t.setSub db b₀) ∨
      db.sub? x = none ∧ t = .createSubscription b := by
  cases hx : db.sub? x with
  | none => exact .inr ⟨rfl, sub?_new h hx hb⟩
  | some b₀ =>
    rw [sub?_set h hx] at hb
    exact .inl ⟨b₀, rfl, (Option.some.inj hb).symm⟩

/-- A transaction writes the subscriptions of `subs` only. -/
theorem setSub_of_not_mem (h : b.id ∉ t.subs) : t.setSub db b = b := by
  cases t with
  | schedule ws => exact Db.advanceAll_of_not_mem h
  | persistSuccess k run s => exact if_neg fun he => h (by simp [subs, he.1])
  | moveToDlq e clearsWorker now => exact if_neg fun he => h (by simp [subs, he])
  | updateSubscription id c => exact if_neg fun he => h (by simp [subs, he])
  | resume id nextFire => exact if_neg fun he => h (by simp [subs, he])
  | _ => rfl

theorem sub?_keep (h : t.apply db = some db') (hx : x ∉ t.subs) (hb : db.sub? x = some b) :
    db'.sub? x = some b := by
  have hid : b.id = x := Db.sub?_id hb
  rw [sub?_set h hb, setSub_of_not_mem (by rwa [hid])]

/-! ## When a subscription fires -/

/-- A PATCH, DELETE or resume of the subscription `x`. -/
def edits (x : UUID) : Txn → Bool
  | updateSubscription id _ => id = x
  | resume id _ => id = x
  | _ => false

/-- Without a write of a scheduler or a request, a subscription fires as before. -/
theorem setSub_timing (db : Db) (he : t.edits b.id = false) (hs : ∀ ws, t = .schedule ws →
    b.id ∉ ws.map (·.subscriptionId)) :
    (t.setSub db b).cronExpression = b.cronExpression ∧
      (t.setSub db b).timezone = b.timezone ∧ (t.setSub db b).nextFireAt = b.nextFireAt := by
  cases t with
  | persistSuccess k run s =>
    simp only [setSub]
    split <;> simp
  | moveToDlq e clearsWorker now =>
    simp only [setSub, Subscription.countFailure]
    split
    · split <;> simp
    · simp
  | schedule ws =>
    rw [setSub, Db.advanceAll_of_not_mem (hs ws rfl)]
    simp
  | updateSubscription id c =>
    have hne : b.id ≠ id := fun h => by simp [edits, h] at he
    simp [setSub, hne]
  | resume id nextFire =>
    have hne : b.id ≠ id := fun h => by simp [edits, h] at he
    simp [setSub, hne]
  | _ => exact ⟨rfl, rfl, rfl⟩

/-- How a transaction changes the subscription `b` to `b'`, as far as its schedule goes. -/
inductive Retimes (b : Subscription) : Txn → Subscription → Prop where
  | keep {t b'} (he : t.edits b.id = false) (hid : b'.id = b.id)
    (hcron : b'.cronExpression = b.cronExpression) (hzone : b'.timezone = b.timezone)
    (hnext : b'.nextFireAt = b.nextFireAt)
    (hactive : b'.status = .active → b.status = .active) : Retimes b t b'
  /-- A tick has served the subscription. -/
  | advance {ws w n b'} (hw : w ∈ ws) (hx : w.subscriptionId = b.id)
    (ha : w.advance = .nextFireAt n) (hid : b'.id = b.id)
    (hcron : b'.cronExpression = b.cronExpression) (hzone : b'.timezone = b.timezone)
    (hnext : b'.nextFireAt = some n) (hactive : b'.status = .active → b.status = .active) :
    Retimes b (.schedule ws) b'
  | resume {n} : Retimes b (.resume b.id n) (b.resume n)
  | change {c} : Retimes b (.updateSubscription b.id c) (b.change c)

/-- A batch leaves the schedule, or the last write for the subscription sets `next_fire_at`. -/
theorem advanceAll_retimes (ws : List WindowWrite) (b : Subscription) :
    Retimes b (.schedule ws) (Db.advanceAll ws b) := by
  induction ws generalizing b with
  | nil => exact .keep rfl rfl rfl rfl rfl fun h => h
  | cons w ws ih =>
    by_cases hx : b.id = w.subscriptionId
    swap
    · rw [Db.advanceAll_cons_of_ne hx]
      cases ih b with
      | keep he hid hcron hzone hnext hactive => exact .keep he hid hcron hzone hnext hactive
      | advance hw hx ha hid hcron hzone hnext hactive =>
        exact .advance (List.mem_cons_of_mem _ hw) hx ha hid hcron hzone hnext hactive
    · rw [Db.advanceAll_cons_of_eq hx]
      have hactive₀ : (b.advance w.advance).status = .active → b.status = .active := by
        cases w.advance with
        | nextFireAt n => exact fun h => h
        | pause now => exact fun h => by cases h
      have hcron₀ : (b.advance w.advance).cronExpression = b.cronExpression := by
        cases w.advance <;> rfl
      have hzone₀ : (b.advance w.advance).timezone = b.timezone := by
        cases w.advance <;> rfl
      cases ih (b.advance w.advance) with
      | keep he hid hcron hzone hnext hactive =>
        cases ha : w.advance with
        | nextFireAt n =>
          rw [ha] at hid hcron hzone hnext hactive hactive₀
          exact .advance List.mem_cons_self hx.symm ha hid hcron hzone hnext
            fun h => hactive₀ (hactive h)
        | pause now =>
          rw [ha] at hid hcron hzone hnext hactive hactive₀
          exact .keep he hid hcron hzone hnext fun h => hactive₀ (hactive h)
      | advance hw hx' ha hid hcron hzone hnext hactive =>
        exact .advance (List.mem_cons_of_mem _ hw) (hx'.trans (b.advance_id _)) ha
          (hid.trans (b.advance_id _)) (hcron.trans hcron₀) (hzone.trans hzone₀) hnext
          fun h => hactive₀ (hactive h)

theorem setSub_retimes (db : Db) (t : Txn) (b : Subscription) : Retimes b t (t.setSub db b) := by
  cases t with
  | persistSuccess k run s =>
    simp only [setSub]
    split <;> exact .keep rfl rfl rfl rfl rfl fun h => h
  | moveToDlq e clearsWorker now =>
    simp only [setSub, Subscription.countFailure]
    split
    · split
      · exact .keep rfl rfl rfl rfl rfl fun h => by cases h
      · exact .keep rfl rfl rfl rfl rfl fun h => h
    · exact .keep rfl rfl rfl rfl rfl fun h => h
  | schedule ws => exact advanceAll_retimes ws b
  | updateSubscription id c =>
    simp only [setSub]
    split
    · rename_i he
      subst he
      exact .change
    · rename_i hne
      exact .keep (decide_eq_false (Ne.symm hne)) rfl rfl rfl rfl fun h => h
  | resume id nextFire =>
    simp only [setSub]
    split
    · rename_i he
      subst he
      exact .resume
    · rename_i hne
      exact .keep (decide_eq_false (Ne.symm hne)) rfl rfl rfl rfl fun h => h
  | _ => exact .keep rfl rfl rfl rfl rfl fun h => h

end Txn

/-! ## Columns of the requests -/

/-- A column of `subscriptions` that only requests write: a POST creates it, and a PATCH may change
it. -/
structure Column (δ : Type) where
  get : Subscription → δ
  /-- The value that a PATCH sets. -/
  patch : SubscriptionChanges → Option δ
  advance : ∀ b a, get (b.advance a) = get b
  countFailure : ∀ b now, get (b.countFailure now) = get b
  succeed : ∀ b, get { b with consecutiveFailures := 0 } = get b
  resume : ∀ b nextFire, get (b.resume nextFire) = get b
  change : ∀ b c, get (b.change c) = (patch c).getD (get b)
  delete : patch { status := some .cancelled } = none

namespace Column

/-- `retry_policy`. -/
def retryPolicy : Column RetryPolicyDoc where
  get b := b.retryPolicy
  patch c := c.retryPolicy
  advance b a := by cases a <;> rfl
  countFailure b now := (b.countFailure_frame now).1
  succeed b := rfl
  resume b nextFire := rfl
  change b c := rfl
  delete := rfl

/-- `payment_config`. -/
def paymentConfig : Column Dict where
  get b := b.paymentConfig
  patch c := c.paymentConfig
  advance b a := by cases a <;> rfl
  countFailure b now := (b.countFailure_frame now).2
  succeed b := rfl
  resume b nextFire := rfl
  change b c := rfl
  delete := rfl

variable {δ : Type} (col : Column δ)

theorem setSub_cases (db : Db) (t : Txn) (b : Subscription) :
    col.get (t.setSub db b) = col.get b ∨
      ∃ id c d, t = .updateSubscription id c ∧ col.patch c = some d ∧
        col.get (t.setSub db b) = d := by
  cases t with
  | persistSuccess k run s =>
    simp only [Txn.setSub]
    split
    · exact .inl (col.succeed b)
    · exact .inl rfl
  | moveToDlq e clearsWorker now =>
    simp only [Txn.setSub]
    split
    · exact .inl (col.countFailure b now)
    · exact .inl rfl
  | schedule ws => exact .inl (Db.advanceAll_frame col.advance ws b)
  | updateSubscription id c =>
    simp only [Txn.setSub]
    split
    · cases hd : col.patch c with
      | none => exact .inl (by rw [col.change, hd]; rfl)
      | some d => exact .inr ⟨id, c, d, rfl, hd, by rw [col.change, hd]; rfl⟩
    · exact .inl rfl
  | resume id nextFire =>
    simp only [Txn.setSub]
    split
    · exact .inl (col.resume b nextFire)
    · exact .inl rfl
  | _ => exact .inl rfl

end Column

end PaymentScheduler
