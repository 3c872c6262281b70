import PaymentScheduler.Db.Subscriptions
import PaymentScheduler.System.Ownership

/-!
# Columns of the requests in every state

A value of a column that only requests write (`Column`) has been brought by a request. So a property
of all values that requests bring (`Column.Brings`) holds of all values that are stored, that
executors have loaded, and that requests are about to store (`Column.Kept`).
-/

namespace PaymentScheduler

namespace Column

variable {δ : Type} (col : Column δ) (Q : δ → Prop) {env : Env} {s s' : Sys} {a : Action}

/-- The values that are stored, that the executors have loaded and that requests are going to store
satisfy `Q`. -/
structure Kept (s : Sys) : Prop where
  subs : ∀ {x b}, s.db.sub? x = some b → Q (col.get b)
  loaded : ∀ {w c}, (s.executors w).phase.loaded? = some c → Q (col.get c.subscription)
  updates : ∀ {r id c status d}, s.requests r = .updating id c status → col.patch c = some d → Q d

/-- The values of the POST or PATCH that an action begins satisfy `Q`. -/
structure Brings (env : Env) (s : Sys) (a : Action) : Prop where
  create : ∀ {r body id b}, a = .request r (.begin (.create body id)) →
    Api.createSubscription env s.clock body id = some b → Q (col.get b)
  update : ∀ {r id body b c d}, a = .request r (.begin (.update id body)) →
    Api.changesOf env s.clock b body = .ok c → col.patch c = some d → Q d

variable {col Q}

theorem Kept.init : col.Kept Q Sys.init := by
  refine ⟨?_, ?_, ?_⟩
  · intro x b h
    cases h
  · intro w c h
    cases h
  · intro r id c status d h
    cases h

/-- The values after a transaction are those of before, and the ones that it stores. -/
theorem Kept.step_sub (hI : col.Kept Q s) (ha : col.Brings Q env s a)
    (h : s.step env a = some s') {x : UUID} {b : Subscription} (hb : s'.db.sub? x = some b) :
    Q (col.get b) := by
  obtain ⟨ht, hdb⟩ | ⟨t, ht, hc⟩ := Sys.step_db h
  · rw [hdb] at hb
    exact hI.subs hb
  · obtain ⟨b₀, hb₀, rfl⟩ | ⟨-, rfl⟩ := Txn.sub?_cases hc hb
    · obtain he | ⟨id, c, d, rfl, hd, he⟩ := col.setSub_cases s.db t b₀
      · rw [he]
        exact hI.subs hb₀
      · obtain ⟨r, b, st, rfl, hst⟩ := Sys.request_of_txn? ht rfl
        obtain ⟨status, hup⟩ := Api.step_update hst
        rw [he]
        exact hI.updates hup hd
    · obtain ⟨r, b', st, rfl, hst⟩ := Sys.request_of_txn? ht rfl
      obtain ⟨body, id, rfl, hb⟩ := Api.step_creating hst
      exact ha.create rfl hb

theorem Kept.step (hI : col.Kept Q s) (ha : col.Brings Q env s a)
    (h : s.step env a = some s') : col.Kept Q s' := by
  refine ⟨hI.step_sub ha h, fun {w c} hl => ?_, fun {r id c status d} hup hd => ?_⟩
  · obtain hsame | ⟨b, t, rfl, -, hst⟩ := Sys.executor_cases h w
    · rw [hsame] at hl
      exact hI.loaded hl
    · obtain ⟨-, hl | hl⟩ := (Executor.step_move hst).loaded?_cases hl
      · exact hI.loaded hl
      · exact hI.subs (Executor.loadRun_eq hl).2.2
  · obtain he | ⟨b, t, rfl, hst⟩ := Sys.request_cases h r
    · rw [he] at hup
      exact hI.updates hup hd
    · rw [hup] at hst
      obtain ⟨b, body, rfl, -, hc⟩ | ⟨-, rfl⟩ := Api.step_updating hst
      · exact ha.update rfl hc hd
      · rw [col.delete] at hd
        cases hd

end Column

end PaymentScheduler
