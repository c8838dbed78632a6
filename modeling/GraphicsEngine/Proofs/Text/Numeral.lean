import GraphicsEngine.Text.Hex
import GraphicsEngine.Text.Numeral
import Mathlib.Data.Nat.Digits.Lemmas
import Mathlib.Tactic.IntervalCases

/-! Which texts are numbers, and which number each of them is. A reader takes exactly the numbers
below its bound, and what is printed is read back.
-/

namespace GraphicsEngine.Text

-----------------------------------------------------------------------------------------
-- Digits
-----------------------------------------------------------------------------------------

/-- The character is a digit of the radix, which is sixteen at most, and stands for the value.
Digits beyond nine are letters of either case.
-/
def IsDigit (radix : Nat) (character : Char) (value : Nat)
    : Prop :=
  value < radix
    ∧ ("0123456789abcdef".toList[value]? = some character
      ∨ "0123456789ABCDEF".toList[value]? = some character)

/-- Each of the sixteen digits has its place among them as its value, in either case. -/
theorem digitValue?_of_place {character : Char} {value : Nat}
    (place : "0123456789abcdef".toList[value]? = some character
      ∨ "0123456789ABCDEF".toList[value]? = some character)
    : digitValue? character = some value := by
  have inside : value < 16 := by
    rcases place with place | place
    · exact (List.getElem?_eq_some_iff.mp place).1
    · exact (List.getElem?_eq_some_iff.mp place).1
  interval_cases value <;> rcases place with place | place <;> cases place <;> rfl

/-- The order of characters is that of their numbers. -/
theorem le_iff_toNat_le {first second : Char}
    : first ≤ second ↔ first.toNat ≤ second.toNat :=
  Iff.rfl

/-- The place of a character in a range gives the character. -/
theorem eq_ofNat_of_range {character first : Char} {place : Nat} (starts : first ≤ character)
    (found : character.toNat - first.toNat = place)
    : character = Char.ofNat (place + first.toNat) := by
  rw [le_iff_toNat_le] at starts
  have code : place + first.toNat = character.toNat := by omega
  rw [code, Char.ofNat_toNat]

/-- A character with a value below sixteen is found at this place, by cases on the range that the
character is in.
-/
theorem place_of_digitValue? {character : Char} {value : Nat} (small : value < 16)
    (valued : digitValue? character = some value)
    : "0123456789abcdef".toList[value]? = some character
      ∨ "0123456789ABCDEF".toList[value]? = some character := by
  unfold digitValue? at valued
  split_ifs at valued with decimal lower upper
  · have valued := Option.some.inj valued
    have ends := le_iff_toNat_le.mp decimal.2
    simp only [Char.reduceToNat] at ends
    have digit : value < 10 := by
      simp only [Char.reduceToNat] at valued
      omega
    rw [eq_ofNat_of_range decimal.1 valued]
    interval_cases value <;> exact .inl rfl
  · have valued := Option.some.inj valued
    have letter : 10 ≤ value := by omega
    rw [eq_ofNat_of_range lower.1 (Nat.eq_sub_of_add_eq valued)]
    interval_cases value <;> exact .inl rfl
  · have valued := Option.some.inj valued
    have letter : 10 ≤ value := by omega
    rw [eq_ofNat_of_range upper.1 (Nat.eq_sub_of_add_eq valued)]
    interval_cases value <;> exact .inr rfl

variable {radix : Nat}

/-- The digits of a radix are what a reader takes for them. -/
theorem digit?_eq_some_iff (small : radix ≤ 16) {character : Char} {value : Nat}
    : digit? radix character = some value ↔ IsDigit radix character value := by
  simp only [digit?, Option.filter_eq_some_iff, decide_eq_true_eq]
  constructor
  · intro read
    obtain ⟨valued, inside⟩ := read
    exact ⟨inside, place_of_digitValue? (by omega) valued⟩
  · intro digit
    obtain ⟨inside, place⟩ := digit
    exact ⟨digitValue?_of_place place, inside⟩

/-- What has no value in any radix is no digit. -/
theorem not_isDigit {character : Char} {value : Nat} (valueless : digitValue? character = none)
    : ¬ IsDigit radix character value := by
  intro digit
  rw [digitValue?_of_place digit.2] at valueless
  cases valueless

/-- A letter is no decimal digit. -/
theorem not_isDigit_ten {character : Char} {value : Nat} (valueless : digit? 10 character = none)
    : ¬ IsDigit 10 character value := by
  intro digit
  rw [(digit?_eq_some_iff (by decide)).mpr digit] at valueless
  cases valueless

/-- A digit of the radix is printed as one. -/
theorem isDigit_digitChar (small : radix ≤ 16) {value : Nat} (inside : value < radix)
    : IsDigit radix (Nat.digitChar value) value := by
  refine ⟨inside, .inl ?_⟩
  have bounded : value < 16 := by omega
  interval_cases value <;> rfl

-----------------------------------------------------------------------------------------
-- Numbers
-----------------------------------------------------------------------------------------

/-- The characters are digits of the radix, and in this order they stand for the value. -/
def Spells (radix : Nat) (digits : List Char) (value : Nat)
    : Prop :=
  ∃ values, List.Forall₂ (IsDigit radix) digits values ∧ Nat.ofDigits radix values.reverse = value

/-- The text is a number: at most one plus sign, then at least one digit. -/
def IsNumeral (radix : Nat) (text : List Char) (value : Nat)
    : Prop :=
  ∃ sign digits, text = sign ++ digits ∧ (sign = [] ∨ sign = ['+']) ∧ digits ≠ []
    ∧ Spells radix digits value

/-- One more digit counts the digits before it up by the radix. -/
theorem Spells.snoc {digits : List Char} {character : Char} {front last : Nat}
    (spells : Spells radix digits front) (digit : IsDigit radix character last)
    : Spells radix (digits ++ [character]) (last + radix * front) := by
  obtain ⟨values, places, rfl⟩ := spells
  refine ⟨values ++ [last], List.rel_append places (.cons digit .nil), ?_⟩
  rw [List.reverse_append, List.reverse_singleton, List.singleton_append, Nat.ofDigits_cons]

/-- Behind a value below the bound, a reader takes digits if the number that they complete is below
the bound as well, by induction on the digits.
-/
theorem readDigits_eq_ok_iff (small : radix ≤ 16) {bound start result : Nat} {digits : List Char}
    (below : start < bound)
    : readDigits radix bound start digits = .ok result
      ↔ ∃ values, List.Forall₂ (IsDigit radix) digits values
        ∧ start * radix ^ values.length + Nat.ofDigits radix values.reverse = result
        ∧ result < bound := by
  induction digits generalizing start with
  | nil =>
      rw [readDigits]
      constructor
      · intro read
        cases read
        exact ⟨[], .nil, by simp, below⟩
      · intro holds
        obtain ⟨values, places, total, -⟩ := holds
        cases places
        simp [← total]
  | cons character rest ih =>
      have counted (first : Nat) (others : List Nat)
          : start * radix ^ (first :: others).length + Nat.ofDigits radix (first :: others).reverse
            = (start * radix + first) * radix ^ others.length
              + Nat.ofDigits radix others.reverse := by
        rw [List.reverse_cons, Nat.ofDigits_append, Nat.ofDigits_singleton, List.length_reverse,
          List.length_cons]
        ring
      rw [readDigits]
      constructor
      · intro read
        split at read
        · cases read
        · next first digit =>
          split at read
          · next further =>
            obtain ⟨others, places, total, fits⟩ := (ih further).mp read
            have digit := (digit?_eq_some_iff small).mp digit
            exact ⟨first :: others, .cons digit places, (counted first others).trans total, fits⟩
          · cases read
      · intro holds
        obtain ⟨values, places, total, fits⟩ := holds
        cases places with
        | @cons _ first _ others digit places =>
            rw [counted] at total
            have positive : 0 < radix := Nat.zero_lt_of_lt digit.1
            have grows : start * radix + first
                ≤ (start * radix + first) * radix ^ others.length :=
              Nat.le_mul_of_pos_right _ (Nat.pow_pos positive)
            have further : start * radix + first < bound := by omega
            rw [(digit?_eq_some_iff small).mpr digit]
            simp only [further, if_true]
            exact (ih further).mpr ⟨others, places, total, fits⟩

/-- From the start, a reader takes digits if their number is below the bound. -/
theorem readDigits_zero_eq_ok_iff (small : radix ≤ 16) {bound result : Nat} {digits : List Char}
    (positive : 0 < bound)
    : readDigits radix bound 0 digits = .ok result
      ↔ Spells radix digits result ∧ result < bound := by
  rw [readDigits_eq_ok_iff small positive]
  simp only [Nat.zero_mul, Nat.zero_add, Spells]
  constructor
  · intro holds
    obtain ⟨values, places, total, fits⟩ := holds
    exact ⟨⟨values, places, total⟩, fits⟩
  · intro holds
    obtain ⟨⟨values, places, total⟩, fits⟩ := holds
    exact ⟨values, places, total, fits⟩

/-- Digits do not begin with a sign. -/
theorem Spells.not_sign {digits : List Char} {value : Nat}
    : ¬ Spells radix ('+' :: digits) value := by
  intro spells
  obtain ⟨_, places, -⟩ := spells
  cases places with
  | cons digit _ => exact not_isDigit rfl digit

/-- A reader takes exactly the numbers below its bound. -/
theorem readNumeral_eq_ok_iff (small : radix ≤ 16) {bound result : Nat} {text : List Char}
    (positive : 0 < bound)
    : readNumeral radix bound text = .ok result ↔ IsNumeral radix text result ∧ result < bound := by
  constructor
  · intro read
    unfold readNumeral at read
    split at read
    · cases read
    · cases read
    · next digits present =>
      obtain ⟨spells, fits⟩ := (readDigits_zero_eq_ok_iff small positive).mp read
      exact ⟨⟨['+'], digits, rfl, .inr rfl, fun none => present none, spells⟩, fits⟩
    · next present _ _ =>
      obtain ⟨spells, fits⟩ := (readDigits_zero_eq_ok_iff small positive).mp read
      exact ⟨⟨[], text, rfl, .inl rfl, present, spells⟩, fits⟩
  · intro holds
    obtain ⟨⟨sign, digits, rfl, signed, present, spells⟩, fits⟩ := holds
    have read := (readDigits_zero_eq_ok_iff small positive).mpr ⟨spells, fits⟩
    rcases signed with rfl | rfl
    · rw [List.nil_append, readNumeral]
      · exact read
      · exact present
      · rintro rfl
        exact Spells.not_sign spells
      · rintro _ rfl
        exact Spells.not_sign spells
    · rw [List.singleton_append, readNumeral]
      · exact read
      · exact present

-----------------------------------------------------------------------------------------
-- Numbers that are printed
-----------------------------------------------------------------------------------------

/-- The hexadecimal digits that are printed stand for what they have room for, by induction on their
number.
-/
theorem spells_hexDigits (width value : Nat)
    : Spells 16 (hexDigits width value) (value % 16 ^ width) := by
  induction width generalizing value with
  | zero => exact ⟨[], .nil, (Nat.mod_one value).symm⟩
  | succ width ih =>
      have last : IsDigit 16 (Nat.digitChar (value % 16)) (value % 16) :=
        isDigit_digitChar (Nat.le_refl 16) (Nat.mod_lt value (by decide))
      have total : value % 16 ^ (width + 1) = value % 16 + 16 * (value / 16 % 16 ^ width) := by
        rw [Nat.pow_succ', Nat.mod_mul]
      rw [hexDigits, total]
      exact (ih (value / 16)).snoc last

/-- The decimal digits of a number stand for it, by induction on how many there are. -/
theorem spells_toDigits (value : Nat)
    : Spells 10 (Nat.toDigits 10 value) value := by
  induction value using Nat.strongRecOn with
  | _ value ih =>
      have last : IsDigit 10 (Nat.digitChar (value % 10)) (value % 10) :=
        isDigit_digitChar (by decide) (Nat.mod_lt value (by decide))
      by_cases single : value < 10
      · rw [Nat.mod_eq_of_lt single] at last
        rw [Nat.toDigits_of_lt_base single]
        exact ⟨[value], .cons last .nil, Nat.ofDigits_singleton⟩
      · have more : 10 ≤ value := Nat.le_of_not_lt single
        rw [Nat.toDigits_of_base_le (by decide) more]
        have front := (ih (value / 10) (by omega)).snoc last
        rwa [Nat.mod_add_div] at front

/-- Digits alone are a number. -/
theorem Spells.isNumeral {digits : List Char} {value : Nat} (spells : Spells radix digits value)
    (present : digits ≠ [])
    : IsNumeral radix digits value :=
  ⟨[], digits, rfl, .inl rfl, present, spells⟩

/-- There is no underscore among digits, by induction on them. -/
theorem Spells.filter_eq {digits : List Char} {value : Nat} (spells : Spells radix digits value)
    : digits.filter (· ≠ '_') = digits := by
  obtain ⟨values, places, -⟩ := spells
  induction places with
  | nil => rfl
  | @cons character _ _ _ digit _ ih =>
      have other : character ≠ '_' := by
        rintro rfl
        exact not_isDigit rfl digit
      simpa [other] using ih

end GraphicsEngine.Text
