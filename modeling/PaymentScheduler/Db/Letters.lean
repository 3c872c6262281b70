import PaymentScheduler.Db.Effect

/-!
# What a transaction does to the dead letters

`Txn.setEntry` is the row that a transaction makes of a dead letter that is there: only a resolution
writes one. `Txn.newEntries` is the dead letter that it inserts.

- `entries_apply`: the dead letters after a transaction, in the order of their insertion.
- `entry_cases`: one dead letter after a transaction.
- `entryIds_apply`: their ids differ.
-/

namespace PaymentScheduler

/-- `resolve_dlq_entry` on the dead letter. -/
def DeadLetterEntry.resolve (e : DeadLetterEntry) (now : Time) (resolvedBy : String) :
    DeadLetterEntry :=
  { e with resolvedAt := some now, resolvedBy := some resolvedBy }

namespace Txn

variable {db db' : Db} {t : Txn} {e : DeadLetterEntry}

/-- The row that a transaction makes of the dead letter `e`. -/
def setEntry (e : DeadLetterEntry) : Txn → DeadLetterEntry
  | resolve id now resolvedBy => if e.id = id then e.resolve now resolvedBy else e
  | _ => e

/-- The dead letters that a transaction inserts. -/
def newEntries : Txn → List DeadLetterEntry
  | moveToDlq e _ _ => [e]
  | _ => []

theorem entries_apply (h : t.apply db = some db') :
    db'.deadLetterQueue = db.deadLetterQueue.map (t.setEntry ·) ++ t.newEntries := by
  -- The transactions that keep the table.
  have hkeep : ∀ {d : Db}, d.deadLetterQueue = db.deadLetterQueue →
      d.deadLetterQueue = db.deadLetterQueue.map (fun e => e) ++ [] := by
    intro d hd
    rw [hd, List.map_id', List.append_nil]
  cases t with
  | persistSuccess k run b =>
    obtain ⟨rfl, -⟩ | ⟨rfl, -⟩ := Db.persistSuccess_cases h <;> exact hkeep rfl
  | scheduleRetry run error now next =>
    have hd := Db.insertRun_dlq h
    exact hkeep hd
  | moveToDlq e clearsWorker now =>
    rw [Db.moveToDlq_cases h]
    show db.deadLetterQueue ++ [e] = db.deadLetterQueue.map (fun e => e) ++ [e]
    rw [List.map_id']
  | insertAttempt next => exact hkeep (Db.insertRun_dlq h)
  | schedule ws => exact hkeep (Db.schedule_dlq h)
  | createSubscription b => exact hkeep (by rw [(Db.insertSub_cases h).1]; rfl)
  | resolve id now resolvedBy =>
    cases h
    show Table.updateWhere _ _ db.deadLetterQueue = _
    simp only [Table.updateWhere, decide_eq_true_eq, newEntries, List.append_nil]
    rfl
  | produce j runId =>
    have hd := Db.insertRun_dlq (Db.produce_cases h).2
    exact hkeep hd
  | _ => cases h; exact hkeep rfl

/-- A dead letter after a transaction: one of before, or the inserted one. -/
theorem entry_cases (h : t.apply db = some db') (he : e ∈ db'.deadLetterQueue) :
    (∃ e₀ ∈ db.deadLetterQueue, e = t.setEntry e₀) ∨
      ∃ clearsWorker now, t = moveToDlq e clearsWorker now := by
  rw [entries_apply h, List.mem_append, List.mem_map] at he
  obtain ⟨e₀, he₀, rfl⟩ | hnew := he
  · exact .inl ⟨e₀, he₀, rfl⟩
  · cases t with
    | moveToDlq e' clearsWorker now =>
      rw [List.mem_singleton.mp hnew]
      exact .inr ⟨clearsWorker, now, rfl⟩
    | _ => cases hnew

/-- A resolution writes the two columns of the resolution only. -/
theorem setEntry_frame (e : DeadLetterEntry) :
    (t.setEntry e).id = e.id ∧ (t.setEntry e).jobRunId = e.jobRunId ∧
      (t.setEntry e).jobId = e.jobId ∧ (t.setEntry e).subscriptionId = e.subscriptionId ∧
      (t.setEntry e).failureReason = e.failureReason ∧ (t.setEntry e).errorClass = e.errorClass ∧
      (t.setEntry e).payloadSnapshot = e.payloadSnapshot ∧
      (t.setEntry e).createdAt = e.createdAt := by
  cases t with
  | resolve id now resolvedBy =>
    simp only [setEntry]
    split <;> simp [DeadLetterEntry.resolve]
  | _ => simp [setEntry]

/-- The primary key of the dead letters. -/
theorem entryIds_apply (h : t.apply db = some db')
    (hu : Table.Unique (·.id) db.deadLetterQueue) : Table.Unique (·.id) db'.deadLetterQueue := by
  have hkeep : Table.Unique (·.id) (db.deadLetterQueue.map (t.setEntry ·)) := by
    unfold Table.Unique
    rw [List.map_map]
    have hid : ((fun e : DeadLetterEntry => e.id) ∘ fun e => t.setEntry e) = fun e => e.id := by
      funext e
      exact (t.setEntry_frame e).1
    rw [hid]
    exact hu
  rw [entries_apply h]
  cases t with
  | moveToDlq e clearsWorker now =>
    obtain ⟨db₁, h₁, -⟩ := Option.map_eq_some_iff.mp h
    have hnew : db.entry? e.id = none := (Db.insertEntry_cases h₁).2.1
    simp only [setEntry, List.map_id'] at hkeep ⊢
    exact hkeep.append_single hnew
  | _ =>
    show Table.Unique _ (List.map _ _ ++ [])
    rw [List.append_nil]
    exact hkeep

end Txn

end PaymentScheduler
