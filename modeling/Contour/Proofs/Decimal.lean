import Contour.Text.Decimal
import Mathlib.Data.Nat.Digits.Lemmas

/-!
# Decimal digits and numbers

`digits` and `value` are inverse to each other on digit lists without a leading zero:

* `value_digits`: the digits of a number stand for it;
* `digits_value`: a list of digits that does not start with zero is the list of the digits of its
  value;
* `int?_int`: a whole number that was written in decimal is read back;
* `hex_inj`: numbers with the same last hexadecimal digits are equal up to a power of sixteen.

The digits are those of `Nat.digits 10`, which has the least significant digit first.
-/

namespace Contour.Decimal

/-! ## Digits -/

theorem digitsOnto_eq {n : Nat} (hn : n ≠ 0) (tail : List Nat) :
    digitsOnto n tail = (Nat.digits 10 n).reverse ++ tail := by
  fun_induction digitsOnto n tail with
  | case1 n tail h =>
    rw [Nat.digits_of_lt 10 n hn h, List.reverse_singleton, List.singleton_append]
  | case2 n tail h ih =>
    rw [ih (by omega), Nat.digits_eq_cons_digits_div (by decide) hn, List.reverse_cons,
      List.append_assoc, List.singleton_append]

theorem digits_eq {n : Nat} (hn : n ≠ 0) : digits n = (Nat.digits 10 n).reverse := by
  rw [digits, digitsOnto_eq hn, List.append_nil]

theorem digits_zero : digits 0 = [0] := by
  rw [digits, digitsOnto, if_pos (by decide)]

theorem value_eq (ds : List Nat) : value ds = Nat.ofDigits 10 ds.reverse := by
  rw [value, Nat.ofDigits_eq_foldr, List.foldr_reverse]
  congr 1
  funext a d
  simp [Nat.mul_comm, Nat.add_comm]

/-- The digits of a number stand for it. -/
theorem value_digits (n : Nat) : value (digits n) = n := by
  by_cases hn : n = 0
  · subst hn; rw [digits_zero]; rfl
  · rw [value_eq, digits_eq hn, List.reverse_reverse, Nat.ofDigits_digits]

theorem natDigits_value {d : Nat} {ds : List Nat} (hd : ∀ x ∈ d :: ds, x < 10) (h0 : d ≠ 0) :
    Nat.digits 10 (value (d :: ds)) = (d :: ds).reverse := by
  have hlast : ∀ h : (d :: ds).reverse ≠ [], (d :: ds).reverse.getLast h ≠ 0 := by
    simpa using h0
  rw [value_eq]
  exact Nat.digits_ofDigits 10 (by decide) _ (fun x hx => hd x (List.mem_reverse.mp hx)) hlast

theorem value_ne_zero {d : Nat} {ds : List Nat} (hd : ∀ x ∈ d :: ds, x < 10) (h0 : d ≠ 0) :
    value (d :: ds) ≠ 0 := by
  intro h
  have hback := natDigits_value hd h0
  rw [h] at hback
  simp at hback

/-- A list of digits that does not start with zero is the list of the digits of its value. -/
theorem digits_value {d : Nat} {ds : List Nat} (hd : ∀ x ∈ d :: ds, x < 10) (h0 : d ≠ 0) :
    digits (value (d :: ds)) = d :: ds := by
  rw [digits_eq (value_ne_zero hd h0), natDigits_value hd h0, List.reverse_reverse]

theorem digits_lt {n x : Nat} (hx : x ∈ digits n) : x < 10 := by
  by_cases hn : n = 0
  · subst hn
    rw [digits_zero, List.mem_singleton] at hx
    omega
  · rw [digits_eq hn, List.mem_reverse] at hx
    exact Nat.digits_lt_base (by decide) hx

/-- The first digit of a number other than zero is not zero. -/
theorem digits_eq_cons {n : Nat} (hn : n ≠ 0) : ∃ d ds, digits n = d :: ds ∧ d ≠ 0 := by
  have hne : Nat.digits 10 n ≠ [] := Nat.digits_ne_nil_iff_ne_zero.mpr hn
  refine ⟨(Nat.digits 10 n).getLast hne, (Nat.digits 10 n).dropLast.reverse, ?_,
    Nat.getLast_digit_ne_zero 10 hn⟩
  rw [digits_eq hn, ← List.reverse_concat', List.dropLast_append_getLast]

theorem digits_ne_nil (n : Nat) : digits n ≠ [] := by
  by_cases hn : n = 0
  · rw [hn, digits_zero]; simp
  · obtain ⟨d, ds, h, -⟩ := digits_eq_cons hn
    rw [h]; simp

/-! ## Characters -/

theorem digit?_digitChar : ∀ d < 10, digit? (digitChar d) = some d := by decide

theorem mapM_digit?_map_digitChar {ds : List Nat} (h : ∀ d ∈ ds, d < 10) :
    (ds.map digitChar).mapM digit? = some ds := by
  induction ds with
  | nil => rfl
  | cons d ds ih =>
    rw [List.map_cons, List.mapM_cons, digit?_digitChar d (h d List.mem_cons_self),
      ih fun x hx => h x (List.mem_cons_of_mem _ hx)]
    rfl

theorem nat?_nat (n : Nat) : nat? (nat n) = some n := by
  have hne : (nat n).isEmpty = false := by simp [nat, digits_ne_nil]
  rw [nat?, if_neg (by simp [hne]), nat, mapM_digit?_map_digitChar fun _ => digits_lt,
    Option.map_some, value_digits]

/-- The characters of a written number: digits only. -/
theorem isDigit_of_mem_nat {n : Nat} {c : Char} (hc : c ∈ nat n) : c.isDigit = true := by
  obtain ⟨d, hd, rfl⟩ := List.mem_map.mp hc
  exact (by decide : ∀ d < 10, (digitChar d).isDigit = true) d (digits_lt hd)

/-- A written natural number starts with a digit, so that no sign is taken off it. -/
theorem int?_nat (n : Nat) : int? (nat n) = some (n : Int) := by
  cases h : nat n with
  | nil => exact absurd (List.map_eq_nil_iff.mp h) (digits_ne_nil n)
  | cons c s =>
    have hc : c.isDigit = true := isDigit_of_mem_nat (h ▸ List.mem_cons_self)
    rw [int?]
    · rw [← h, nat?_nat]; rfl
    · rintro rest ⟨⟩; exact absurd hc (by decide)
    · rintro rest ⟨⟩; exact absurd hc (by decide)

/-- A number that was written in decimal is read back. -/
theorem int?_int (n : Int) : int? (int n) = some n := by
  by_cases hn : n < 0
  · have hread : int? ('-' :: nat n.natAbs) = some (-(n.natAbs : Int)) := by
      rw [int?, nat?_nat]; rfl
    rw [int, if_pos hn, hread, Option.some.injEq]
    omega
  · rw [int, if_neg hn, int?_nat, Option.some.injEq]
    omega

/-! ## Hexadecimal -/

@[simp] theorem length_hex (width n : Nat) : (hex width n).length = width := by
  induction width generalizing n with
  | zero => rfl
  | succ w ih => simp [hex, ih]

theorem hexChar_inj : ∀ a < 16, ∀ b < 16, hexChar a = hexChar b → a = b := by decide

theorem hex_inj {width m n : Nat} (h : hex width m = hex width n) :
    m % 16 ^ width = n % 16 ^ width := by
  induction width generalizing m n with
  | zero => simp [Nat.mod_one]
  | succ w ih =>
    obtain ⟨hrest, hlast⟩ := List.append_inj h (by simp)
    have hdigit : m % 16 = n % 16 :=
      hexChar_inj _ (Nat.mod_lt _ (by decide)) _ (Nat.mod_lt _ (by decide)) (List.cons.inj hlast).1
    rw [Nat.pow_succ', Nat.mod_mul, Nat.mod_mul, hdigit, ih hrest]

end Contour.Decimal
