import SqlSelect.Value

/-! The shape of written numbers.

A numeral starts with a digit, goes on with digits and points, and may end in an exponent. However
a number is laid out, it is a numeral with a sign at most (`Layout.finite_signed`,
`integer_signed`); so a literal that is not text is `NULL` or a signed numeral (`Value.chars_cases`). -/
namespace SqlSelect

namespace Decimal

/-- Nothing, or an exponent with its digits. -/
inductive Exponent : List Char → Prop where
  | none : Exponent []
  | digits {s} : (∀ c ∈ s, c.isDigit = true) → Exponent ('e' :: s)
  | signed {sign s} : sign = '+' ∨ sign = '-' → s ≠ [] → (∀ c ∈ s, c.isDigit = true) →
      Exponent ('e' :: sign :: s)

/-- Digits with points among them, the first of them a digit, and perhaps an exponent. -/
def Numeral (s : List Char) : Prop :=
  ∃ d body tail, s = d :: (body ++ tail) ∧ d.isDigit = true ∧
    (∀ c ∈ body, c.isDigit = true ∨ c = '.') ∧ Exponent tail

/-- A numeral, or the negative of one. -/
def Signed (s : List Char) : Prop := Numeral s ∨ ∃ t, s = '-' :: t ∧ Numeral t

/-- A numeral without an exponent. -/
theorem Numeral.positional {d : Char} {body : List Char} (digit : d.isDigit = true)
    (plain : ∀ c ∈ body, c.isDigit = true ∨ c = '.') : Numeral (d :: body) :=
  ⟨d, body, [], by simp, digit, plain, .none⟩

/-! ### Integers -/

theorem toDigits_isDigit {n : Nat} {c : Char} (h : c ∈ Nat.toDigits 10 n) : c.isDigit = true :=
  Nat.isDigit_of_mem_toDigits (by decide) (by decide) h

theorem toDigits_numeral (n : Nat) : Numeral (Nat.toDigits 10 n) := by
  obtain ⟨d, body, digits⟩ := List.exists_cons_of_ne_nil (Nat.toDigits_ne_nil (n := n) (b := 10))
  have each : ∀ c ∈ d :: body, c.isDigit = true := fun c hc => toDigits_isDigit (digits ▸ hc)
  rw [digits]
  exact .positional (each d List.mem_cons_self) fun c hc => .inl (each c (List.mem_cons_of_mem d hc))

theorem integer_signed (n : Int) : Signed (integer n) := by
  cases n with
  | ofNat n => exact .inl (toDigits_numeral n)
  | negSucc n => exact .inr ⟨_, rfl, toDigits_numeral (n + 1)⟩

/-! ### The digits of a number -/

theorem Digits.ofScaled_isDigit {n : Nat} {scale : Int} {c : Char}
    (h : c ∈ (Digits.ofScaled n scale).digits) : c.isDigit = true := by
  simp only [ofScaled, List.mem_reverse] at h
  have kept := (List.dropWhile_sublist _).subset h
  exact toDigits_isDigit (List.mem_reverse.mp kept)

theorem Binary.search_isDigit {x : Binary} {tie : Tie} {leading : Int} {tried left : Nat} {c : Char}
    (h : c ∈ (x.search tie leading tried left).digits) : c.isDigit = true := by
  induction left generalizing tried with
  | zero => exact Digits.ofScaled_isDigit h
  | succ left ih =>
    simp only [search] at h
    split at h
    · exact Digits.ofScaled_isDigit h
    · exact ih h

theorem Binary.shortest_isDigit {x : Binary} {tie : Tie} {c : Char}
    (h : c ∈ (x.shortest tie).digits) : c.isDigit = true := by
  unfold shortest at h
  split at h
  · cases h
  · exact search_isDigit h

/-! ### Layouts -/

theorem zeros_isDigit {n : Int} {c : Char} (h : c ∈ zeros n) : c.isDigit = true := by
  rw [List.eq_of_mem_replicate h]
  decide

namespace Layout
variable {d : Digits} {first : Char} {rest : List Char}

theorem positionally_numeral (l : Layout) (digits : d.digits = first :: rest)
    (each : ∀ c ∈ d.digits, c.isDigit = true) : Numeral (l.positionally d) := by
  have head : first.isDigit = true := each first (by simp [digits])
  have tail : ∀ c ∈ rest, c.isDigit = true := fun c hc => each c (by simp [digits, hc])
  unfold positionally
  split
  · refine .positional (by decide) fun c hc => ?_
    rcases List.mem_cons.mp hc with rfl | hc
    · exact .inr rfl
    · rcases List.mem_append.mp hc with hc | hc
      · exact .inl (zeros_isDigit hc)
      · exact .inl (each c hc)
  · split
    · rw [digits, List.cons_append, List.cons_append]
      refine .positional head fun c hc => ?_
      rcases List.mem_append.mp hc with hc | hc
      · rcases List.mem_append.mp hc with hc | hc
        · exact .inl (tail c hc)
        · exact .inl (zeros_isDigit hc)
      · split at hc
        · rcases List.mem_cons.mp hc with rfl | hc
          · exact .inr rfl
          · rw [List.mem_singleton.mp hc]
            exact .inl (by decide)
        · cases hc
    · rename_i positive _
      obtain ⟨n, point⟩ : ∃ n, d.point.toNat = n + 1 := ⟨d.point.toNat - 1, by omega⟩
      rw [digits, point, List.take_succ_cons, List.cons_append]
      refine .positional head fun c hc => ?_
      rcases List.mem_append.mp hc with hc | hc
      · exact .inl (tail c (List.mem_of_mem_take hc))
      · rcases List.mem_cons.mp hc with rfl | hc
        · exact .inr rfl
        · exact .inl (tail c (List.mem_of_mem_drop hc))

/-- The exponent part of scientific form. -/
theorem exponent_of_integer (sign : List Char) (n : Int) (h : sign = [] ∨ sign = ['+'] ∧ 0 ≤ n) :
    Exponent ('e' :: (sign ++ integer n)) := by
  rcases h with rfl | ⟨rfl, nonneg⟩
  · cases n with
    | ofNat n => exact .digits fun c hc => toDigits_isDigit hc
    | negSucc n => exact .signed (.inr rfl) Nat.toDigits_ne_nil fun c hc => toDigits_isDigit hc
  · cases n with
    | ofNat n => exact .signed (.inl rfl) Nat.toDigits_ne_nil fun c hc => toDigits_isDigit hc
    | negSucc n => omega

theorem scientifically_numeral (l : Layout) (digits : d.digits = first :: rest)
    (each : ∀ c ∈ d.digits, c.isDigit = true) : Numeral (l.scientifically d) := by
  have head : first.isDigit = true := each first (by simp [digits])
  have tail : ∀ c ∈ rest, c.isDigit = true := fun c hc => each c (by simp [digits, hc])
  have exponent : Exponent ('e' :: ((if l.signedExponent && 0 ≤ d.point - 1 then ['+'] else []) ++
      integer (d.point - 1))) := by
    refine exponent_of_integer _ _ ?_
    split
    · rename_i signed
      simp only [Bool.and_eq_true, decide_eq_true_eq] at signed
      exact .inr ⟨rfl, signed.2⟩
    · exact .inl rfl
  unfold scientifically
  rw [digits]
  cases rest with
  | nil => exact ⟨first, [], _, rfl, head, by simp, exponent⟩
  | cons second others =>
    refine ⟨first, '.' :: second :: others, _, rfl, head, fun c hc => ?_, exponent⟩
    rcases List.mem_cons.mp hc with rfl | hc
    · exact .inr rfl
    · exact .inl (tail c hc)

theorem magnitude_numeral (l : Layout) (x : Binary) : Numeral (l.magnitude x) := by
  have each : ∀ c ∈ (x.shortest l.tie).digits, c.isDigit = true := fun _ => Binary.shortest_isDigit
  cases digits : (x.shortest l.tie).digits with
  | nil =>
    simp only [magnitude, digits, List.isEmpty_nil, if_true]
    split
    · refine .positional (by decide) fun c hc => ?_
      rcases List.mem_cons.mp hc with rfl | hc
      · exact .inr rfl
      · rw [List.mem_singleton.mp hc]
        exact .inl (by decide)
    · exact .positional (by decide) (by simp)
  | cons first rest =>
    simp only [magnitude, digits, List.isEmpty_cons, Bool.false_eq_true, if_false]
    split
    · exact l.positionally_numeral digits each
    · exact l.scientifically_numeral digits each

theorem finite_signed (l : Layout) (negative : Bool) (x : Binary) :
    Signed (l.finite negative x) := by
  cases negative with
  | false => exact .inl (l.magnitude_numeral x)
  | true => exact .inr ⟨_, rfl, l.magnitude_numeral x⟩

end Layout

end Decimal

/-- Every literal is text, `NULL`, or a signed numeral. -/
theorem Value.chars_cases (v : Value) :
    (∃ s, v = .text s) ∨ v.chars = "NULL".toList ∨ Decimal.Signed v.chars := by
  cases v with
  | null => exact .inr (.inl rfl)
  | integer n => exact .inr (.inr (Decimal.integer_signed _))
  | real x =>
    simp only [chars]
    split
    · exact .inr (.inr (layout.finite_signed _ _))
    · exact .inr (.inl rfl)
  | text s => exact .inl ⟨s, rfl⟩

end SqlSelect
