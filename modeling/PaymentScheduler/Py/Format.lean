import Mathlib
import PaymentScheduler.Py.Text
import PaymentScheduler.Py.Time

/-!
# Reading formats back

`str` of a `uuid.UUID` and `isoformat` determine their argument:

- **Digits** (`digits`): a number is read back from its padded digits by `decode`.
- **Calendar**: `ymd2ord`, CPython's `_ymd2ord`, reads back the date of `ord2ymd`.
- **Fields**: a field of two or six digits at the end of a string can be taken off (`append_pad`).
- `UUID.str_inj`, `isoformat_inj`.
-/

namespace PaymentScheduler

/-! ## Digits -/

/-- The value of a hexadecimal digit. -/
def hexValue (c : Char) : Nat := if c.toNat < 58 then c.toNat - 48 else c.toNat - 87

/-- The number with the digits `cs`. -/
def decode (b : Nat) (cs : List Char) : Nat := cs.foldl (fun n c => b * n + hexValue c) 0

/-- The digits of `n`, filled up with zeros to `w` characters. -/
def digits (b w n : Nat) : List Char := List.leftpad w '0' (Nat.toDigits b n)

theorem hexValue_digitChar {d : Nat} (h : d < 16) : hexValue d.digitChar = d := by
  interval_cases d <;> rfl

variable {b w n : Nat}

theorem decode_append (cs : List Char) (c : Char) :
    decode b (cs ++ [c]) = b * decode b cs + hexValue c := by
  simp [decode]

theorem decode_toDigits (hb : 1 < b) (hb' : b ≤ 16) : decode b (Nat.toDigits b n) = n := by
  induction n using Nat.strong_induction_on with
  | _ n ih =>
    rw [Nat.toDigits_eq_if hb]
    split
    · rename_i hn
      simp [decode, hexValue_digitChar (show n < 16 by omega)]
    · rename_i hn
      have hmod : n % b < b := Nat.mod_lt n (by omega)
      rw [decode_append, ih (n / b) (Nat.div_lt_self (by omega) hb),
        hexValue_digitChar (by omega), Nat.div_add_mod]

theorem decode_digits (hb : 1 < b) (hb' : b ≤ 16) : decode b (digits b w n) = n := by
  have hzeros : ∀ (k : Nat) (cs : List Char),
      decode b (List.replicate k '0' ++ cs) = decode b cs := by
    intro k cs
    induction k with
    | zero => rfl
    | succ k ih => simpa [decode, List.replicate_succ, hexValue] using ih
  unfold digits List.leftpad
  rw [hzeros, decode_toDigits hb hb']

theorem digits_inj (hb : 1 < b) (hb' : b ≤ 16) {m : Nat} (h : digits b w n = digits b w m) :
    n = m := by
  rw [← decode_digits hb hb' (w := w) (n := n), h, decode_digits hb hb']

/-- A digit is the character of a number below the base. -/
theorem mem_digits (hb : 1 < b) {c : Char} (h : c ∈ digits b w n) : ∃ d < b, c = d.digitChar := by
  have hmem : ∀ n, c ∈ Nat.toDigits b n → ∃ d < b, c = d.digitChar := by
    intro n
    induction n using Nat.strong_induction_on with
    | _ n ih =>
      rw [Nat.toDigits_eq_if hb]
      split
      · rename_i hn
        intro h
        exact ⟨n, hn, List.mem_singleton.mp h⟩
      · intro h
        rcases List.mem_append.mp h with h | h
        · exact ih (n / b) (Nat.div_lt_self (by omega) hb) h
        · exact ⟨n % b, Nat.mod_lt n (by omega), List.mem_singleton.mp h⟩
  rcases List.mem_append.mp h with h | h
  · exact ⟨0, by omega, (List.mem_replicate.mp h).2⟩
  · exact hmem n h

theorem digits_ne (hb : 1 < b) (hb' : b ≤ 16) {c : Char} (h : c ∈ digits b w n) :
    c ≠ '-' ∧ c ≠ ':' ∧ c ≠ '.' := by
  obtain ⟨d, hd, rfl⟩ := mem_digits hb h
  have hd : d < 16 := by omega
  interval_cases d <;> decide

theorem length_digits (hb : 1 < b) (hw : 0 < w) (h : n < b ^ w) : (digits b w n).length = w := by
  have := (Nat.length_toDigits_le_iff hb hw).mpr h
  rw [digits, List.length_leftpad]
  omega

/-! ## UUIDs -/

theorem UUID.length_digits (u : UUID) : (digits 16 32 u.toNat).length = 32 := by
  refine PaymentScheduler.length_digits (by decide) (by decide) ?_
  have := u.isLt
  omega

theorem UUID.length_str (u : UUID) : (UUID.str u).toList.length = 36 := by
  have hlen := UUID.length_digits u
  simp only [digits, List.length_leftpad] at hlen
  simp only [UUID.str, String.toList_append, String.toList_ofList, List.length_append,
    List.length_take, List.length_drop, List.length_leftpad, hlen]
  rfl

/-- The digits of a `uuid` are its string without the hyphens. -/
theorem UUID.filter_str (u : UUID) :
    (UUID.str u).toList.filter (fun c => c ≠ '-') = digits 16 32 u.toNat := by
  have hlen := UUID.length_digits u
  have hpart : ∀ i n, (((digits 16 32 u.toNat).drop i).take n).filter (fun c => c ≠ '-') =
      ((digits 16 32 u.toNat).drop i).take n := by
    intro i n
    refine List.filter_eq_self.mpr fun c hc => ?_
    simpa using (digits_ne (by decide) (by decide)
      (List.mem_of_mem_drop (List.mem_of_mem_take hc))).1
  have hstr : (UUID.str u).toList.filter (fun c => c ≠ '-') =
      ((digits 16 32 u.toNat).drop 0).take 8 ++ (((digits 16 32 u.toNat).drop 8).take 4 ++
        (((digits 16 32 u.toNat).drop 12).take 4 ++ (((digits 16 32 u.toNat).drop 16).take 4 ++
          ((digits 16 32 u.toNat).drop 20).take 12))) := by
    rw [← hpart 0 8, ← hpart 8 4, ← hpart 12 4, ← hpart 16 4, ← hpart 20 12]
    simp [UUID.str, digits]
  rw [hstr]
  generalize digits 16 32 u.toNat = ds at hlen
  have h₁ : (ds.drop 20).take 12 = ds.drop 20 := List.take_of_length_le (by simp [hlen])
  have h₂ : (ds.drop 16).take 4 ++ ds.drop 20 = ds.drop 16 := by
    rw [show ds.drop 20 = (ds.drop 16).drop 4 by simp, List.take_append_drop]
  have h₃ : (ds.drop 12).take 4 ++ ds.drop 16 = ds.drop 12 := by
    rw [show ds.drop 16 = (ds.drop 12).drop 4 by simp, List.take_append_drop]
  have h₄ : (ds.drop 8).take 4 ++ ds.drop 12 = ds.drop 8 := by
    rw [show ds.drop 12 = (ds.drop 8).drop 4 by simp, List.take_append_drop]
  rw [h₁, h₂, h₃, h₄, List.drop_zero, List.take_append_drop]

theorem UUID.str_inj {u v : UUID} (h : UUID.str u = UUID.str v) : u = v := by
  refine BitVec.eq_of_toNat_eq (digits_inj (b := 16) (w := 32) (by decide) (by decide) ?_)
  rw [← UUID.filter_str, h, UUID.filter_str]

/-! ## Calendar -/

/-- `_ymd2ord`. -/
def ymd2ord (year : Int) (month : Nat) (day : Int) : Int :=
  let y := year - 1
  y * 365 + y / 4 - y / 100 + y / 400 + daysBeforeMonthOf (isLeap year) month + day

section Year

variable {q a b c : Int} (ha : 0 ≤ a ∧ a ≤ 3) (hb : 0 ≤ b ∧ b ≤ 24) (hc : 0 ≤ c ∧ c ≤ 3)
include ha hb hc

/-- The days before the year `400 * q + 100 * a + 4 * b + c + 1`. -/
theorem days_before_year :
    let y := q * 400 + a * 100 + b * 4 + c
    y * 365 + y / 4 - y / 100 + y / 400 = 146097 * q + 36524 * a + 1461 * b + 365 * c := by
  dsimp only
  have h₁ : (q * 400 + a * 100 + b * 4 + c) / 4 = q * 100 + a * 25 + b := by omega
  have h₂ : (q * 400 + a * 100 + b * 4 + c) / 100 = q * 4 + a := by omega
  have h₃ : (q * 400 + a * 100 + b * 4 + c) / 400 = q := by omega
  rw [h₁, h₂, h₃]
  omega

theorem isLeap_year :
    isLeap (q * 400 + 1 + a * 100 + b * 4 + c) = (c = 3 && (b ≠ 24 || a = 3)) := by
  rw [Bool.eq_iff_iff]
  simp only [isLeap, Bool.and_eq_true, Bool.or_eq_true, decide_eq_true_eq]
  omega

end Year

/-- The date of a day determines it. -/
theorem ymd2ord_ord2ymd (n : Int) :
    ymd2ord (ord2ymd n).1 (ord2ymd n).2.1 (ord2ymd n).2.2 = n := by
  unfold ord2ymd
  dsimp only
  have h₁ : n - 1 = 146097 * ((n - 1) / 146097) + (n - 1) % 146097 := by omega
  generalize (n - 1) / 146097 = q at h₁
  generalize hm₁ : (n - 1) % 146097 = m at h₁
  have h₂ : m = 36524 * (m / 36524) + m % 36524 := by omega
  have ha : 0 ≤ m / 36524 ∧ m / 36524 ≤ 4 := by omega
  generalize m / 36524 = a at h₂ ha
  generalize hm₂ : m % 36524 = k at h₂
  have h₃ : k = 1461 * (k / 1461) + k % 1461 := by omega
  have hb : 0 ≤ k / 1461 ∧ k / 1461 ≤ 24 := by omega
  generalize k / 1461 = b at h₃ hb
  generalize hm₃ : k % 1461 = l at h₃
  have h₄ : l = 365 * (l / 365) + l % 365 := by omega
  have hc : 0 ≤ l / 365 ∧ l / 365 ≤ 4 := by omega
  generalize l / 365 = c at h₄ hc
  generalize hm₄ : l % 365 = d at h₄
  split
  · -- The last day of a leap year.
    rename_i hlast
    obtain rfl | rfl := hlast
    · have hy : q * 400 + 1 + a * 100 + b * 4 + 4 - 1 = q * 400 + 1 + a * 100 + b * 4 + 3 := by
        omega
      have ha' : 0 ≤ a ∧ a ≤ 3 := by omega
      have hdays := days_before_year (q := q) ha' hb (c := 3) (by omega)
      have hleap := isLeap_year (q := q) ha' hb (c := 3) (by omega)
      have hl : isLeap (q * 400 + 1 + a * 100 + b * 4 + 3) = true := by
        rw [hleap]
        simp only [decide_true, Bool.true_and, Bool.or_eq_true, decide_eq_true_eq]
        omega
      unfold ymd2ord
      rw [hy, hl]
      dsimp only at hdays ⊢
      rw [show q * 400 + 1 + a * 100 + b * 4 + 3 - 1 = q * 400 + a * 100 + b * 4 + 3 by omega,
        hdays]
      have hm : daysBeforeMonthOf true 12 = 335 := by decide
      omega
    · have hz : b = 0 ∧ c = 0 := by omega
      obtain ⟨rfl, rfl⟩ := hz
      have hdays := days_before_year (q := q) (a := 3) (b := 24) (c := 3) (by omega) (by omega)
        (by omega)
      have hleap := isLeap_year (q := q) (a := 3) (b := 24) (c := 3) (by omega) (by omega)
        (by omega)
      have hy : q * 400 + 1 + 4 * 100 + 0 * 4 + 0 - 1 = q * 400 + 1 + 3 * 100 + 24 * 4 + 3 := by
        omega
      unfold ymd2ord
      rw [hy, hleap]
      dsimp only at hdays ⊢
      rw [show q * 400 + 1 + 3 * 100 + 24 * 4 + 3 - 1 = q * 400 + 3 * 100 + 24 * 4 + 3 by omega,
        hdays]
      have hm : daysBeforeMonthOf (decide ((3 : Int) = 3) && (decide ((24 : Int) ≠ 24) ||
        decide ((3 : Int) = 3))) 12 = 335 := by decide
      rw [hm]
      omega
  · rename_i hlast
    have ha' : 0 ≤ a ∧ a ≤ 3 := by omega
    have hc' : 0 ≤ c ∧ c ≤ 3 := by omega
    have hdays := days_before_year (q := q) ha' hb hc'
    have hleap := isLeap_year (q := q) ha' hb hc'
    unfold ymd2ord monthDay
    rw [hleap]
    dsimp only at hdays ⊢
    rw [show q * 400 + 1 + a * 100 + b * 4 + c - 1 = q * 400 + a * 100 + b * 4 + c by omega, hdays]
    omega

/-- The fields of a date have two digits. -/
theorem ord2ymd_fields (n : Int) :
    (ord2ymd n).2.1 < 100 ∧ 0 ≤ (ord2ymd n).2.2 ∧ (ord2ymd n).2.2 < 100 := by
  have hday : ∀ leap : Bool, ∀ d : Fin 365, (monthDay leap d.val).1 < 100 ∧
      0 ≤ (monthDay leap d.val).2 ∧ (monthDay leap d.val).2 < 100 := by decide +kernel
  unfold ord2ymd
  dsimp only
  split
  · show (12 : Nat) < 100 ∧ (0 : Int) ≤ 31 ∧ (31 : Int) < 100
    decide
  · have hmod : 0 ≤ (n - 1) % 146097 % 36524 % 1461 % 365 ∧
        (n - 1) % 146097 % 36524 % 1461 % 365 < 365 := by omega
    generalize (n - 1) % 146097 % 36524 % 1461 % 365 = d at hmod
    obtain ⟨k, rfl⟩ := Int.eq_ofNat_of_zero_le hmod.1
    exact hday _ ⟨k, by omega⟩

/-! ## Fields -/

theorem pad_toList {n : Int} (h : 0 ≤ n) : (pad w n).toList = digits 10 w n.natAbs := by
  rw [pad, if_neg (by omega)]
  simp [digits]

/-- The last field of a string, with the character before it. -/
theorem append_pad {cs ds : List Char} {c : Char} {m n : Int} (hw : 0 < w) (hm : 0 ≤ m)
    (hm' : m < 10 ^ w) (hn : 0 ≤ n) (hn' : n < 10 ^ w)
    (h : cs ++ c :: (pad w m).toList = ds ++ c :: (pad w n).toList) : cs = ds ∧ m = n := by
  have hpow : ((10 ^ w : Nat) : Int) = 10 ^ w := by simp
  have hlm : (digits 10 w m.natAbs).length = w := length_digits (by decide) hw (by omega)
  have hln : (digits 10 w n.natAbs).length = w := length_digits (by decide) hw (by omega)
  rw [pad_toList hm, pad_toList hn] at h
  obtain ⟨hcs, hd⟩ := List.append_inj' h (by simp [hlm, hln])
  have := digits_inj (by decide) (by decide) (List.cons.inj hd).2
  exact ⟨hcs, by omega⟩

theorem pad_inj {m n : Int} (h : pad w m = pad w n) : m = n := by
  have hlist := congrArg String.toList h
  have hsign : ∀ {m n : Int}, m < 0 → 0 ≤ n → (pad w m).toList ≠ (pad w n).toList := by
    intro m n hm hn he
    rw [pad_toList hn, pad, if_pos hm] at he
    have hmem : '-' ∈ digits 10 w n.natAbs := by
      rw [← he]
      simp
    exact (digits_ne (by decide) (by decide) hmem).1 rfl
  rcases lt_or_ge m 0 with hm | hm <;> rcases lt_or_ge n 0 with hn | hn
  · rw [pad, pad, if_pos hm, if_pos hn] at hlist
    have hd : digits 10 (w - 1) m.natAbs = digits 10 (w - 1) n.natAbs := by
      simpa [digits] using hlist
    have := digits_inj (by decide) (by decide) hd
    omega
  · exact absurd hlist (hsign hm hn)
  · exact absurd hlist.symm (hsign hn hm)
  · rw [pad_toList hm, pad_toList hn] at hlist
    have := digits_inj (by decide) (by decide) hlist
    omega

/-! ## Instants -/

/-- `isoformat` without the fraction and the offset. -/
def isoSeconds (t : Time) : List Char :=
  let us := t % 86400000000
  let d := ord2ymd (t / 86400000000 + 719163)
  ((((((pad 4 d.1).toList ++ '-' :: (pad 2 d.2.1).toList) ++ '-' :: (pad 2 d.2.2).toList) ++
    'T' :: (pad 2 (us / 3600000000)).toList) ++ ':' :: (pad 2 (us / 60000000 % 60)).toList) ++
    ':' :: (pad 2 (us / 1000000 % 60)).toList)

/-- The fraction. -/
def isoFraction (t : Time) : List Char :=
  let us := t % 86400000000
  if us % 1000000 = 0 then [] else '.' :: (pad 6 (us % 1000000)).toList

theorem isoformat_toList (t : Time) :
    (isoformat t).toList = isoSeconds t ++ isoFraction t ++ "+00:00".toList := by
  unfold isoformat isoSeconds isoFraction
  dsimp only
  split <;> simp

theorem isoSeconds_inj {t u : Int} (h : isoSeconds t = isoSeconds u) :
    t / 1000000 = u / 1000000 := by
  unfold isoSeconds at h
  dsimp only at h
  have ht := ord2ymd_fields (t / 86400000000 + 719163)
  have hu := ord2ymd_fields (u / 86400000000 + 719163)
  have hymd := ymd2ord_ord2ymd (t / 86400000000 + 719163)
  have hymd' := ymd2ord_ord2ymd (u / 86400000000 + 719163)
  generalize ord2ymd (t / 86400000000 + 719163) = d at *
  generalize ord2ymd (u / 86400000000 + 719163) = e at *
  obtain ⟨h, hs⟩ := append_pad (by decide) (by omega) (by omega) (by omega) (by omega) h
  obtain ⟨h, hmin⟩ := append_pad (by decide) (by omega) (by omega) (by omega) (by omega) h
  obtain ⟨h, hhour⟩ := append_pad (by decide) (by omega) (by omega) (by omega) (by omega) h
  obtain ⟨h, hday⟩ := append_pad (by decide) (by omega) (by omega) (by omega) (by omega) h
  obtain ⟨h, hmonth⟩ := append_pad (by decide) (by omega) (by omega) (by omega) (by omega) h
  have hyear := pad_inj (String.toList_inj.mp h)
  have hmonth' : d.2.1 = e.2.1 := by omega
  rw [hyear, hmonth', hday, hymd'] at hymd
  have hsecond : t % 86400000000 / 1000000 = u % 86400000000 / 1000000 := by
    have h60 : ∀ a : Int, a / 60000000 = a / 1000000 / 60 := fun a => by omega
    have h3600 : ∀ a : Int, a / 3600000000 = a / 1000000 / 60 / 60 := fun a => by omega
    rw [h60, h60] at hmin
    rw [h3600, h3600] at hhour
    omega
  have hsplit : ∀ a : Int, a / 1000000 = a / 86400000000 * 86400 + a % 86400000000 / 1000000 :=
    fun a => by omega
  rw [hsplit t, hsplit u, hsecond, show t / 86400000000 = u / 86400000000 by omega]

/-- The last six characters before a fraction are not digits. -/
theorem isoSeconds_tail (t : Time) :
    ∃ cs ds, isoSeconds t = cs ++ ds ∧ ds.length = 6 ∧ ':' ∈ ds := by
  have hlen : ∀ n : Int, 0 ≤ n → n < 100 → (pad 2 n).toList.length = 2 := by
    intro n hn hn'
    rw [pad_toList hn]
    exact length_digits (by decide) (by decide) (by omega)
  unfold isoSeconds
  dsimp only
  rw [List.append_assoc]
  refine ⟨_, _, rfl, ?_, by simp⟩
  simp only [List.length_append, List.length_cons]
  rw [hlen _ (by omega) (by omega), hlen _ (by omega) (by omega)]

theorem isoformat_inj {t u : Int} (h : isoformat t = isoformat u) : t = u := by
  have hlist := congrArg String.toList h
  rw [isoformat_toList, isoformat_toList] at hlist
  have hcut := List.append_cancel_right hlist
  -- A fraction cannot be read as minutes and seconds.
  have hmix : ∀ {t u : Time}, isoSeconds t ≠ isoSeconds u ++ '.' ::
      (pad 6 (u % 86400000000 % 1000000)).toList := by
    intro t u he
    obtain ⟨cs, ds, htail, hds, hcolon⟩ := isoSeconds_tail t
    have hlen : (pad 6 (u % 86400000000 % 1000000)).toList.length = 6 := by
      rw [pad_toList (by omega)]
      exact length_digits (by decide) (by decide) (by omega)
    rw [htail, List.append_cons] at he
    have hmem := (List.append_inj' he (by rw [hds, hlen])).2
    rw [hmem, pad_toList (by omega)] at hcolon
    exact (digits_ne (by decide) (by decide) hcolon).2.1 rfl
  have hmod : ∀ a : Int, a % 86400000000 % 1000000 = a % 1000000 := fun a => by omega
  unfold isoFraction at hcut
  dsimp only at hcut
  split at hcut <;> split at hcut
  · rename_i ht hu
    have hs : t / 1000000 = u / 1000000 := isoSeconds_inj (by simpa using hcut)
    have ht' : t % 1000000 = 0 := (hmod t).symm.trans ht
    have hu' : u % 1000000 = 0 := (hmod u).symm.trans hu
    omega
  · rw [List.append_nil] at hcut
    exact absurd hcut hmix
  · rw [List.append_nil] at hcut
    exact absurd hcut.symm hmix
  · obtain ⟨hcut, hus⟩ := append_pad (by decide) (by omega) (by omega) (by omega) (by omega) hcut
    have hs := isoSeconds_inj hcut
    rw [hmod, hmod] at hus
    omega

end PaymentScheduler
