import PaymentScheduler.Domain.Models

/-!
# The hashed strings

The strings that an idempotency key and a fingerprint hash determine what they are made of: `str` of
a uuid has 36 characters, and behind the colon stands a decimal number or an ISO date.

- `int_toString_inj`: decimal numbers of any sign and length.
- `idempotency_text_inj`, `fingerprint_text_inj`: the strings.
- `hashed_text_inj`: the strings, and their hashes where no two strings have one hash.
-/

namespace PaymentScheduler

theorem nat_repr_inj {m n : Nat} (h : m.repr = n.repr) : m = n := by
  have hdigits : Nat.toDigits 10 m = Nat.toDigits 10 n := by
    simpa only [Nat.toList_repr] using congrArg String.toList h
  rw [← Nat.ofDigitChars_ten_toDigits (n := m), hdigits, Nat.ofDigitChars_ten_toDigits]

/-- A number without a sign does not start with one. -/
theorem nat_repr_ne_minus {n : Nat} {s : String} : n.repr ≠ "-" ++ s := by
  intro h
  have hmem : '-' ∈ Nat.toDigits 10 n := by
    rw [← Nat.toList_repr, h]
    simp
  have hdigit := Nat.isDigit_of_mem_toDigits (by decide) (by decide) hmem
  exact absurd hdigit (by decide)

theorem int_toString_inj {m n : Int} (h : toString m = toString n) : m = n := by
  simp only [Int.toString_eq_repr, Int.repr_eq_if] at h
  split at h <;> split at h
  · have := nat_repr_inj h
    omega
  · exact absurd h nat_repr_ne_minus
  · exact absurd h.symm nat_repr_ne_minus
  · have := nat_repr_inj ((String.append_right_inj "-").mp h)
    omega

/-- The string that an idempotency key hashes. -/
theorem idempotency_text_inj {u v : UUID} {m n : Int}
    (h : u.str ++ ":" ++ toString m = v.str ++ ":" ++ toString n) : u = v ∧ m = n := by
  have hlist : u.str.toList ++ (":".toList ++ (toString m).toList) =
      v.str.toList ++ (":".toList ++ (toString n).toList) := by
    simpa only [String.toList_append, List.append_assoc] using congrArg String.toList h
  have hlen : u.str.toList.length = v.str.toList.length := by
    rw [UUID.length_str, UUID.length_str]
  obtain ⟨hu, hn⟩ := List.append_inj hlist hlen
  have hnum : (toString m).toList = (toString n).toList := List.append_cancel_left hn
  exact ⟨UUID.str_inj (String.toList_inj.mp hu), int_toString_inj (String.toList_inj.mp hnum)⟩

/-- The strings determine run and attempt, and subscription and window; without collisions, so do
their hashes. -/
theorem hashed_text_inj :
    (∀ (u v : UUID) (m n : Int),
      u.str ++ ":" ++ toString m = v.str ++ ":" ++ toString n ↔ u = v ∧ m = n) ∧
    (∀ (u v : UUID) (t t' : Time),
      u.str ++ ":" ++ isoformat t = v.str ++ ":" ++ isoformat t' ↔ u = v ∧ t = t') ∧
    ∀ env : Env, Function.Injective env.hexdigest →
      (∀ (u v : UUID) (m n : Int),
        IdempotencyKey.forRun env u m = IdempotencyKey.forRun env v n ↔ u = v ∧ m = n) ∧
      ∀ (u v : UUID) (t t' : Time),
        JobFingerprint.forJob env u t = JobFingerprint.forJob env v t' ↔ u = v ∧ t = t' := by
  refine ⟨fun u v m n => ⟨idempotency_text_inj, ?_⟩, fun u v t t' => ⟨fingerprint_text_inj, ?_⟩,
    fun env hh => ⟨fun u v m n => ⟨fun h => idempotency_text_inj (hh h), ?_⟩,
      fun u v t t' => ⟨fun h => fingerprint_text_inj (hh h), ?_⟩⟩⟩
  all_goals
    rintro ⟨rfl, rfl⟩
    rfl

namespace Demo

/-- The digests of the strings of two attempts and of two windows; those of all strings differ. -/
def keyEnv : Env where
  hexdigest :=
    Equiv.swap "00000000-0000-4000-8000-000000000003:1"
        "5d81077246d15d2b97923cd249b7f02e6e4743f477e232e798c37abcfad3306d" *
      Equiv.swap "00000000-0000-4000-8000-000000000003:11"
        "891aa195f121ae5ccfbfcf260c365ae5029580445d4b50ef25a2c8dda7d22cfa" *
      Equiv.swap "00000000-0000-4000-8000-000000000001:2024-06-01T07:00:00+00:00"
        "4e60f5f0a58fae93acfa0ee5a968e38ccea2cd32821544292c99d730dde28585" *
      Equiv.swap "00000000-0000-4000-8000-000000000001:2024-06-01T07:00:00.000001+00:00"
        "b97a8898421dee2ad31e857c5541b7aeb367bb98c25f46eff34786da0d0b8444"
  repr _ := ""
  pytzTimezone _ := none
  getNext _ _ _ := none
  isValid _ := false
  allTimezones := []
  workerId _ := ""

/-- Attempts 1 and 11 of a run, and two windows of which one has no fraction. -/
theorem keys_differ :
    IdempotencyKey.forRun keyEnv 0x00000000000040008000000000000003 1 ≠
        IdempotencyKey.forRun keyEnv 0x00000000000040008000000000000003 11 ∧
      JobFingerprint.forJob keyEnv 0x00000000000040008000000000000001 (seconds 1717225200) ≠
        JobFingerprint.forJob keyEnv 0x00000000000040008000000000000001
          (seconds 1717225200 + 1) := by
  obtain ⟨-, -, hhash⟩ := hashed_text_inj
  obtain ⟨hkey, hprint⟩ := hhash keyEnv (Equiv.injective _)
  constructor
  · rw [ne_eq, hkey]
    decide
  · rw [ne_eq, hprint]
    decide

end Demo

end PaymentScheduler
