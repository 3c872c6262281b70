import PaymentScheduler.Db.Txn

/-!
# The texts of a transaction

`error_message` and `failure_reason` are `TEXT` columns. The workers cut the text of an exception to
`ERROR_MESSAGE_MAX_LEN` characters and write it as it is; where it has a NUL character the driver
raises a `DataError`, and the transaction is rolled back.

- `Txn.commit`: a transaction whose texts are checked.
- `isText_append`, `isText_truncate`, `isText_int`: the texts that are made of others.
- `truncate_append`: the cut of a text behind a prefix.
-/

namespace PaymentScheduler

namespace Txn

/-- The texts of exceptions that a transaction writes. -/
def errorTexts : Txn → List String
  | scheduleRetry _ error _ _ => [error]
  | moveToDlq e _ _ => [e.failureReason]
  | _ => []

/-- PostgreSQL takes the texts. -/
def storable (t : Txn) : Bool := t.errorTexts.all isText

/-- The rows after a transaction: `none` is an integrity error or a `DataError`, after which nothing
is written. -/
def commit (t : Txn) (db : Db) : Option Db := if t.storable then t.apply db else none

variable {t : Txn} {db : Db}

theorem commit_of_storable (h : t.storable = true) : t.commit db = t.apply db := if_pos h

theorem commit_of_not_storable (h : t.storable = false) : t.commit db = none :=
  if_neg (by simp [h])

end Txn

section Texts

variable {s t : String} {n : Nat}

theorem isText_iff : isText s = true ↔ Char.ofNat 0 ∉ s.toList := decide_eq_true_iff

theorem isText_append : isText (s ++ t) = true ↔ isText s = true ∧ isText t = true := by
  simp only [isText_iff, String.toList_append, List.mem_append, not_or]

theorem isText_truncate (h : isText s = true) : isText (truncate n s) = true := by
  rw [isText_iff] at h ⊢
  intro hmem
  rw [truncate, String.toList_ofList] at hmem
  exact h (List.mem_of_mem_take hmem)

/-- A decimal number has digits only. -/
theorem isText_nat (n : Nat) : isText n.repr = true := by
  rw [isText_iff, Nat.toList_repr]
  intro hmem
  have hdigit := Nat.isDigit_of_mem_toDigits (by decide) (by decide) hmem
  exact absurd hdigit (by decide)

theorem isText_int (m : Int) : isText (toString m) = true := by
  rw [Int.toString_eq_repr, Int.repr_eq_if]
  split
  · exact isText_nat _
  · exact isText_append.mpr ⟨by decide, isText_nat _⟩

/-- A prefix that is shorter than the cut is kept. -/
theorem truncate_append (h : s.length ≤ n) :
    truncate n (s ++ t) = s ++ truncate (n - s.length) t := by
  have hlen : s.toList.length ≤ n := h
  apply String.toList_injective
  simp only [truncate, String.toList_ofList, String.toList_append, String.length_toList,
    List.take_append, List.take_of_length_le hlen]

theorem truncate_truncate {m : Nat} (h : m ≤ n) : truncate n (truncate m s) = truncate m s := by
  simp only [truncate, String.toList_ofList, List.take_take, Nat.min_eq_right h]

end Texts

end PaymentScheduler
