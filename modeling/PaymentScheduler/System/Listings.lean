import PaymentScheduler.Lib.Paging
import PaymentScheduler.System.History

/-!
# The listings of the API

`list_subscriptions`, `list_jobs` and `list_dlq` cut a page out of the sorted table, and the workers
go on between two pages. Rows are never deleted and keep their sort keys (`Extends`), so the library
result on tables that grow applies to every listing whose filter is on a column that is not
written: all subscriptions, the jobs and the dead letters of a subscription. It does not apply to a
filter on a status, or to the unresolved dead letters.

- `listJobRuns_eq`: `list_job_runs` has one answer, the attempts in order.
- `paging_complete`: a client that goes through the pages misses no row.
-/

namespace PaymentScheduler

def SubscriptionStatus.text : SubscriptionStatus → String
  | active => "ACTIVE"
  | paused => "PAUSED"
  | cancelled => "CANCELLED"

def JobStatus.text : JobStatus → String
  | pending => "PENDING"
  | blocked => "BLOCKED"
  | ready => "READY"
  | done => "DONE"
  | cancelled => "CANCELLED"

namespace Api

/-- `if status: q = q.where(… == status.upper())`. -/
def hasStatus (status : Option String) (text : String) : Bool :=
  status.all fun st => st = "" ∨ upper st = text

/-- `if subscription_id: q = q.where(… == subscription_id)`. -/
def hasSubscription (subscriptionId : Option UUID) (x : UUID) : Bool :=
  subscriptionId.all fun y => x = y

variable (db : Db)

/-- `list_subscriptions`. -/
def listSubscriptions (status : Option String) (limit offset : Int) (order : List UUID) :
    Option (List Subscription) :=
  Table.page (·.id) (fun b => hasStatus status b.status.text) (·.createdAt) limit offset order
    db.subscriptions

/-- `list_jobs`. -/
def listJobs (subscriptionId : Option UUID) (status : Option String) (limit offset : Int)
    (order : List UUID) : Option (List ScheduledJob) :=
  Table.page (·.id)
    (fun j => hasSubscription subscriptionId j.subscriptionId ∧ hasStatus status j.status.text)
    (·.scheduledFor) limit offset order db.scheduledJobs

/-- `list_dlq`. -/
def listDlq (subscriptionId : Option UUID) (resolved : Bool) (limit offset : Int)
    (order : List UUID) : Option (List DeadLetterEntry) :=
  Table.page (·.id)
    (fun e => hasSubscription subscriptionId e.subscriptionId ∧ (resolved ∨ e.resolvedAt.isNone))
    (·.createdAt) limit offset order db.deadLetterQueue

/-- `list_job_runs`. -/
def listJobRuns (job : UUID) (order : List UUID) : Option (List JobRun) :=
  Table.select (·.id) (fun r => r.jobId = job) (·.attempt) db.jobRuns.length order db.jobRuns

/-- The listings that filter on columns that are not written. -/
inductive Listing where
  | subscriptions
  | jobs (subscriptionId : Option UUID)
  | deadLetters (subscriptionId : Option UUID)

/-- The ids of a page. -/
def Listing.page (limit offset : Int) (order : List UUID) : Listing → Option (List UUID)
  | subscriptions => (listSubscriptions db none limit offset order).map fun bs => bs.map (·.id)
  | jobs sub => (listJobs db sub none limit offset order).map fun js => js.map (·.id)
  | deadLetters sub => (listDlq db sub true limit offset order).map fun es => es.map (·.id)

/-- The sort key of a row that is listed. -/
def Listing.sortKey? (x : UUID) : Listing → Option Time
  | subscriptions => (db.sub? x).map (·.createdAt)
  | jobs sub => ((db.job? x).filter fun j => hasSubscription sub j.subscriptionId).map
      (·.scheduledFor)
  | deadLetters sub => ((db.entry? x).filter fun e => hasSubscription sub e.subscriptionId).map
      (·.createdAt)

end Api

namespace Sys

variable {env : Env}

/-- The dead letters have a primary key. -/
theorem entryIds_step {s s' : Sys} {a : Action} (h : s.step env a = some s')
    (hu : Table.Unique (·.id) s.db.deadLetterQueue) :
    Table.Unique (·.id) s'.db.deadLetterQueue := by
  obtain ⟨-, hdb⟩ | ⟨t, -, hc⟩ := step_db h
  · rwa [hdb]
  · exact Txn.entryIds_apply hc hu

/-- The states in which a client asks for its pages. -/
structure Asked (env : Env) (f : Nat → Sys) : Prop where
  reachable : Reachable env (f 0)
  next : ∀ i, ∃ as, Lts.run (step env) (f i) as = some (f (i + 1))

variable {f : Nat → Sys}

theorem Asked.reach (hf : Asked env f) (i : Nat) : Reachable env (f i) := by
  induction i with
  | zero => exact hf.reachable
  | succ i ih =>
    obtain ⟨as, has⟩ := hf.next i
    exact ih.trans has

theorem Asked.wf (hf : Asked env f) (i : Nat) : (f i).db.Wf := (hf.reach i).owned.wf

theorem Asked.entryIds (hf : Asked env f) (i : Nat) :
    Table.Unique (·.id) (f i).db.deadLetterQueue := by
  refine Lts.Reach.inv (I := fun s => Table.Unique (·.id) s.db.deadLetterQueue)
    (fun hu h => entryIds_step h hu) ?_ (hf.reach i)
  exact List.nodup_nil

theorem Asked.extends (hf : Asked env f) (i : Nat) : (f i).db.Extends (f (i + 1)).db := by
  obtain ⟨as, has⟩ := hf.next i
  exact (run_extends has).db

/-- A client that goes through the pages of a listing, while the system runs on, and stops at the
first page that is not full, has seen every row that was there when it started, unless another row
has the same sort key. -/
theorem paging_complete (hf : Asked env f) (l : Api.Listing) {limit m : Nat}
    {ids order : Nat → List UUID}
    (hpage : ∀ i ≤ m, l.page (f i).db limit (limit * i : Nat) (order i) = some (ids i))
    (hshort : (ids m).length < limit) {x : UUID} {c : Time}
    (hx : l.sortKey? (f 0).db x = some c)
    (hone : ∀ y, l.sortKey? (f m).db y = some c → y = x) : ∃ i ≤ m, x ∈ ids i := by
  cases l with
  | subscriptions =>
    obtain ⟨b, hb, rfl⟩ := Option.map_eq_some_iff.mp hx
    rw [← Db.sub?_id hb]
    refine Table.pages_cover (fun i => (hf.wf i).subIds) (fun i b hb _ => ?_) hpage hshort
      (Table.get?_mem hb) rfl fun b' hb' _ hc => ?_
    · obtain ⟨b', hb', hc⟩ := (hf.extends i).subs ((hf.wf i).sub?_mem.mp hb)
      exact ⟨b', Table.get?_mem hb', Db.sub?_id hb', rfl, hc⟩
    · rw [Db.sub?_id hb]
      refine hone b'.id ?_
      simp [Api.Listing.sortKey?, (hf.wf m).sub?_mem.mp hb', hc]
  | jobs sub =>
    obtain ⟨j, hj, rfl⟩ := Option.map_eq_some_iff.mp hx
    obtain ⟨hj, hsub⟩ := Option.filter_eq_some_iff.mp hj
    rw [← Db.job?_id hj]
    refine Table.pages_cover (fun i => (hf.wf i).jobIds) (fun i j hj hp => ?_) hpage hshort
      (Table.get?_mem hj) (decide_eq_true ⟨hsub, rfl⟩) fun j' hj' hp hc => ?_
    · obtain ⟨j', hj', he⟩ := (hf.extends i).jobs ((hf.wf i).job?_mem.mp hj)
      refine ⟨j', Table.get?_mem hj', Db.job?_id hj', decide_eq_true ⟨?_, rfl⟩, he.frame.2⟩
      rw [he.frame.1]
      exact (of_decide_eq_true hp).1
    · rw [Db.job?_id hj]
      refine hone j'.id ?_
      simp [Api.Listing.sortKey?, (hf.wf m).job?_mem.mp hj', (of_decide_eq_true hp).1, hc]
  | deadLetters sub =>
    obtain ⟨e, he, rfl⟩ := Option.map_eq_some_iff.mp hx
    obtain ⟨he, hsub⟩ := Option.filter_eq_some_iff.mp he
    have hid : e.id = x := Table.get?_key he
    rw [← hid]
    refine Table.pages_cover hf.entryIds (fun i e he hp => ?_) hpage hshort
      (Table.get?_mem he) (decide_eq_true ⟨hsub, .inl rfl⟩) fun e' he' hp hc => ?_
    · obtain ⟨e', he', hevolves⟩ := (hf.extends i).letters.exists_mem he
      obtain ⟨hid, hsub, hc⟩ := hevolves.frame
      refine ⟨e', he', hid, decide_eq_true ⟨?_, .inl rfl⟩, hc⟩
      rw [hsub]
      exact (of_decide_eq_true hp).1
    · rw [hid]
      refine hone e'.id ?_
      have hrow : (f m).db.entry? e'.id = some e' := Table.get?_of_mem (hf.entryIds m) he'
      simp [Api.Listing.sortKey?, hrow, (of_decide_eq_true hp).1, hc]

/-- In every reachable state, `list_job_runs` has exactly one answer for a job: its attempts
1, …, k, in order. -/
theorem job_runs_listed {s : Sys} (hr : Reachable env s) {x : UUID} {j : ScheduledJob}
    (hj : s.db.job? x = some j) :
    ∃ rows, (∃ order, Api.listJobRuns s.db x order = some rows) ∧
      (∀ order rows', Api.listJobRuns s.db x order = some rows' → rows' = rows) ∧
      ∃ k : Nat, 1 ≤ k ∧
        rows.map (·.attempt) = (List.range k).map fun i : Nat => (i : Int) + 1 := by
  have hw := hr.owned.wf
  obtain ⟨rows, order, hrows⟩ := Table.exists_select (p := fun r : JobRun => r.jobId = x)
    (k := (·.attempt)) hw.runIds s.db.jobRuns.length
  refine ⟨rows, ⟨order, hrows⟩, fun order' rows' h' => ?_, ?_⟩
  · refine Table.select_unique hw.runIds (fun r hr hp r' hr' hp' ha => ?_) h' hrows
    refine List.inj_on_of_nodup_map hw.attempts hr hr' ?_
    rw [of_decide_eq_true hp, of_decide_eq_true hp', ha]
  · obtain ⟨all, rfl, hsorted, hperm⟩ := Table.select_perm hw.runIds hrows
    obtain ⟨y, r, hl, rfl⟩ := hr.chain.exists_latest hw hj
    have hpos := hr.chain.pos hl.1
    refine ⟨r.attempt.toNat, by omega, ?_⟩
    have hlen : all.length ≤ s.db.jobRuns.length := by
      rw [hperm.length_eq]
      exact List.length_filter_le _ _
    rw [List.take_of_length_le hlen]
    refine ((hperm.map _).trans (hr.chain.attempts_perm hw hl)).eq_of_pairwise
      (fun a b _ _ hab hba => le_antisymm hab hba) (hsorted.map _ fun _ _ h => h) ?_
    exact List.pairwise_le_range.map _ fun a b h => by omega

end Sys

namespace Demo

/-- The subscriptions of two clients, the second one created a second later. -/
def firstClient : List Action :=
  [.advance start, .request 0 (.begin (.create (body policy) subId))]

def secondClient : List Action :=
  [.advance (start + seconds 1), .request 1 (.begin (.create (body policy) nextId))]

/-- The second client comes after the first page: the first subscription is on two pages. -/
theorem interrupted_pages : ∃ s s', Lts.run (Sys.step env) Sys.init firstClient = some s ∧
    Lts.run (Sys.step env) s secondClient = some s' ∧
    ∃ i ≤ 2, subId ∈ if i = 2 then [] else [subId] := by
  have heval : (Lts.run (Sys.step env) Sys.init firstClient).any (fun s =>
      Api.Listing.page s.db 1 0 [subId] .subscriptions = some [subId] ∧
        Api.Listing.sortKey? s.db subId .subscriptions = some start ∧
        (Lts.run (Sys.step env) s secondClient).any fun s' =>
          Api.Listing.page s'.db 1 1 [nextId, subId] .subscriptions = some [subId] ∧
            Api.Listing.page s'.db 1 2 [nextId, subId] .subscriptions = some [] ∧
            s'.db.subscriptions.all fun b => b.createdAt ≠ start ∨ b.id = subId) = true := by
    decide +kernel
  obtain ⟨s, hs, hfirst⟩ := Lts.exists_run heval
  obtain ⟨hpage₀, hkey, hrest⟩ := of_decide_eq_true hfirst
  obtain ⟨s', hs', hsecond⟩ := Lts.exists_run hrest
  obtain ⟨hpage₁, hpage₂, hone⟩ := of_decide_eq_true hsecond
  refine ⟨s, s', hs, hs', ?_⟩
  let f : Nat → Sys := fun i => if i = 0 then s else s'
  have hf : Sys.Asked env f := by
    refine ⟨⟨firstClient, hs⟩, fun i => ?_⟩
    cases i with
    | zero => exact ⟨secondClient, hs'⟩
    | succ i => exact ⟨[], rfl⟩
  have hpage : ∀ i ≤ 2, Api.Listing.page (f i).db (1 : Nat) (1 * i : Nat)
      (if i = 0 then [subId] else [nextId, subId]) .subscriptions =
        some (if i = 2 then [] else [subId]) := by
    intro i hi
    interval_cases i
    · exact hpage₀
    · exact hpage₁
    · exact hpage₂
  refine Sys.paging_complete hf .subscriptions hpage Nat.zero_lt_one hkey fun y hy => ?_
  obtain ⟨b, hb, hc⟩ := Option.map_eq_some_iff.mp hy
  have hrow := List.all_eq_true.mp hone b (Table.get?_mem hb)
  rw [← Db.sub?_id hb]
  exact (of_decide_eq_true hrow).resolve_left (not_not_intro hc)

theorem retried_listed : ∃ s, Lts.run (Sys.step env) Sys.init retried = some s ∧
    ∃ rows, (∃ order, Api.listJobRuns s.db jobId order = some rows) ∧
      (∀ order rows', Api.listJobRuns s.db jobId order = some rows' → rows' = rows) ∧
      ∃ k : Nat, 1 ≤ k ∧
        rows.map (·.attempt) = (List.range k).map fun i : Nat => (i : Int) + 1 := by
  have heval : (Lts.run (Sys.step env) Sys.init retried).any
      (fun s => (s.db.job? jobId).isSome) = true := by decide +kernel
  obtain ⟨s, hs, hj⟩ := Lts.exists_run heval
  obtain ⟨job, hj⟩ := Option.isSome_iff_exists.mp hj
  exact ⟨s, hs, Sys.job_runs_listed ⟨retried, hs⟩ hj⟩

end Demo

end PaymentScheduler
