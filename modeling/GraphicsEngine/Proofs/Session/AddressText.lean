import GraphicsEngine.Proofs.Text.Numeral
import GraphicsEngine.Session.AddressText

/-! Which texts are addresses. Two marks make a text hexadecimal, every other text is decimal, and
underscores count for nothing behind the mark.
-/

namespace GraphicsEngine.Session

/-- The radix that a text is written in, and what stands behind the mark of the radix. -/
inductive Marked : List Char → Nat → List Char → Prop
  | lower (body : List Char) : Marked ('0' :: 'x' :: body) 16 body
  | upper (body : List Char) : Marked ('0' :: 'X' :: body) 16 body
  | plain (body : List Char) (lower : ∀ rest, body ≠ '0' :: 'x' :: rest)
    (upper : ∀ rest, body ≠ '0' :: 'X' :: rest)
    : Marked body 10 body

/-- The text is a number in its radix, underscores behind the mark aside, and stands for the
address.
-/
def Denotes (text : List Char) (value : UInt32)
    : Prop :=
  ∃ radix body, Marked text radix body
    ∧ Text.IsNumeral radix (body.filter (· ≠ '_')) value.toNat

variable {text : String} {characters body : List Char} {radix : Nat}

/-- The mark is split off, by cases on it. -/
theorem marked_iff
    : Marked characters radix body ↔ splitRadix characters = (radix, body) := by
  constructor
  · intro marked
    cases marked with
    | lower => rfl
    | upper => rfl
    | plain _ lower upper =>
      rw [splitRadix]
      · exact lower
      · exact upper
  · intro split
    unfold splitRadix at split
    split at split
    · cases split
      exact .lower _
    · cases split
      exact .upper _
    · next lower upper =>
      cases split
      exact .plain _ lower upper

theorem Marked.radix_le (marked : Marked characters radix body)
    : radix ≤ 16 := by
  cases marked <;> decide

/-- Of a text with a mark, the number behind the mark is read. -/
theorem readAddress_of_marked (marked : Marked text.toList radix body)
    : readAddress text
      = match Text.readNumeral radix 0x100000000 (body.filter (· ≠ '_')) with
        | .ok value => .ok (UInt32.ofNat value)
        | .error cause => .error { text, cause } := by
  have split := marked_iff.mp marked
  unfold readAddress
  generalize splitRadix text.toList = parts at split ⊢
  cases split
  rfl

/-- A text is read as an address if it stands for one. -/
theorem readAddress_eq_ok_iff {value : UInt32}
    : readAddress text = .ok value ↔ Denotes text.toList value := by
  obtain ⟨⟨radix, body⟩, split⟩ : ∃ marked, splitRadix text.toList = marked := ⟨_, rfl⟩
  have marked : Marked text.toList radix body := marked_iff.mpr split
  have read_iff (number : Nat)
      : Text.readNumeral radix 0x100000000 (body.filter (· ≠ '_')) = .ok number
        ↔ Text.IsNumeral radix (body.filter (· ≠ '_')) number ∧ number < 0x100000000 :=
    Text.readNumeral_eq_ok_iff marked.radix_le (by decide)
  rw [readAddress_of_marked marked]
  constructor
  · intro read
    split at read
    · next number found =>
      obtain ⟨numeral, fits⟩ := (read_iff number).mp found
      cases read
      refine ⟨radix, body, marked, ?_⟩
      rwa [UInt32.toNat_ofNat_of_lt' fits]
    · cases read
  · intro denotes
    obtain ⟨_, _, marked', numeral⟩ := denotes
    cases (marked_iff.mp marked).symm.trans (marked_iff.mp marked')
    rw [(read_iff value.toNat).mpr ⟨numeral, value.toNat_lt⟩]
    exact congrArg Except.ok UInt32.ofNat_toNat

/-- A failure to read an address is about the text that was read. -/
theorem text_of_readAddress {error : AddressError} (failed : readAddress text = .error error)
    : error.text = text := by
  rw [readAddress_of_marked (marked_iff.mpr rfl)] at failed
  split at failed
  · cases failed
  · cases failed
    rfl

-----------------------------------------------------------------------------------------
-- Addresses that are printed
-----------------------------------------------------------------------------------------

/-- An address is printed with all its hexadecimal digits. -/
theorem denotes_hex (value : UInt32)
    : Denotes (Text.hex 8 value.toNat).toList value := by
  have spells := Text.spells_hexDigits 8 value.toNat
  have inside : value.toNat < 16 ^ 8 := value.toNat_lt
  rw [Nat.mod_eq_of_lt inside] at spells
  have present : Text.hexDigits 8 value.toNat ≠ [] := by
    apply List.ne_nil_of_length_pos
    rw [Text.length_hexDigits]
    decide
  rw [Text.hex, String.toList_ofList]
  refine ⟨16, _, .lower _, ?_⟩
  rw [spells.filter_eq]
  exact spells.isNumeral present

/-- There is no mark among decimal digits. -/
theorem denotes_decimal (value : UInt32)
    : Denotes (toString value.toNat).toList value := by
  have spells := Text.spells_toDigits value.toNat
  have unmarked {letter : Char} (none : Text.digit? 10 letter = none) (rest : List Char)
      : Nat.toDigits 10 value.toNat ≠ '0' :: letter :: rest := by
    intro same
    obtain ⟨_, places, -⟩ := same ▸ spells
    obtain _ | ⟨-, _ | ⟨digit, -⟩⟩ := places
    exact Text.not_isDigit_ten none digit
  rw [Nat.toString_eq_repr, Nat.repr_eq_ofList_toDigits, String.toList_ofList]
  refine ⟨10, _, .plain _ (unmarked rfl) (unmarked rfl), ?_⟩
  rw [spells.filter_eq]
  exact spells.isNumeral Nat.toDigits_ne_nil

-----------------------------------------------------------------------------------------
-- Underscores
-----------------------------------------------------------------------------------------

/-- An underscore behind the mark leaves the mark as it is, by cases on the mark. -/
theorem Marked.insert {mark front back : List Char}
    (marked : Marked (mark ++ (front ++ back)) radix (front ++ back))
    : Marked (mark ++ (front ++ '_' :: back)) radix (front ++ '_' :: back) := by
  generalize whole : mark ++ (front ++ back) = characters at marked
  generalize same : front ++ back = body at whole marked
  cases marked with
  | lower =>
    obtain rfl : mark = ['0', 'x'] := List.append_cancel_right whole
    exact .lower _
  | upper =>
    obtain rfl : mark = ['0', 'X'] := List.append_cancel_right whole
    exact .upper _
  | plain _ lower upper =>
    subst same
    obtain rfl : mark = [] := List.append_cancel_right whole
    have unmarked {letter : Char} (other : letter ≠ '_')
        (plain : ∀ rest, front ++ back ≠ '0' :: letter :: rest) (rest : List Char)
        : front ++ '_' :: back ≠ '0' :: letter :: rest := by
      rcases front with _ | ⟨first, _ | ⟨second, front⟩⟩
      · simp
      · simp [other.symm]
      · intro marks
        injection marks with zero marks
        injection marks with other
        exact plain (front ++ back) (by rw [zero, other]; rfl)
    exact .plain _ (unmarked (by decide) lower) (unmarked (by decide) upper)

/-- Reading takes exactly the texts that stand for an address, and fails on any other one with an
error that quotes the text. An address is read back as it is printed, in hexadecimal and in decimal.
An underscore more behind the mark makes no difference, neither to the address nor to the cause of a
failure.
-/
theorem readAddress_grammar
    : (∀ text value, readAddress text = .ok value ↔ Denotes text.toList value)
      ∧ (∀ text,
        (∀ value, ¬ Denotes text.toList value)
        → ∃ error, readAddress text = .error error
          ∧ error.message
            = "invalid address " ++ Text.quote text ++ ": " ++ error.cause.message)
      ∧ (∀ value : UInt32,
        readAddress (Text.hex 8 value.toNat) = .ok value
          ∧ readAddress (toString value.toNat) = .ok value)
      ∧ ∀ mark front back radix,
        Marked (mark ++ (front ++ back)) radix (front ++ back)
        → (readAddress (.ofList (mark ++ (front ++ '_' :: back)))).mapError AddressError.cause
          = (readAddress (.ofList (mark ++ (front ++ back)))).mapError AddressError.cause := by
  refine ⟨fun _ _ => readAddress_eq_ok_iff, ?_, ?_, ?_⟩
  · intro text meaningless
    cases outcome : readAddress text with
    | ok value => exact absurd (readAddress_eq_ok_iff.mp outcome) (meaningless value)
    | error error =>
      have about := text_of_readAddress outcome
      refine ⟨error, rfl, ?_⟩
      rw [← about]
      rfl
  · intro value
    exact ⟨readAddress_eq_ok_iff.mpr (denotes_hex value),
      readAddress_eq_ok_iff.mpr (denotes_decimal value)⟩
  · intro mark front back radix marked
    have inserted := marked.insert
    have filtered : (front ++ '_' :: back).filter (· ≠ '_') = (front ++ back).filter (· ≠ '_') := by
      simp
    rw [← String.toList_ofList (l := mark ++ (front ++ back))] at marked
    rw [← String.toList_ofList (l := mark ++ (front ++ '_' :: back))] at inserted
    rw [readAddress_of_marked marked, readAddress_of_marked inserted, filtered]
    cases Text.readNumeral radix 0x100000000 ((front ++ back).filter (· ≠ '_')) <;> rfl

/-- An underscore among the digits of an address leaves it as it is, and a mark with nothing behind
it is quoted.
-/
theorem readAddress_grammar_underscored
    : Marked "0x08000000".toList 16 "08000000".toList
      ∧ readAddress "0x0800_0000" = .ok 0x08000000
      ∧ (∀ value, ¬ Denotes "0x_".toList value)
      ∧ ∃ error, readAddress "0x_" = .error error
        ∧ error.message
          = "invalid address " ++ Text.quote "0x_" ++ ": " ++ error.cause.message := by
  obtain ⟨accepted, rejected, printed, underscored⟩ := readAddress_grammar
  have marked : Marked "0x08000000".toList 16 "08000000".toList := .lower _
  have plain : readAddress "0x08000000" = .ok 0x08000000 := (printed 0x08000000).1
  have same : (readAddress "0x0800_0000").mapError AddressError.cause
      = (readAddress "0x08000000").mapError AddressError.cause :=
    underscored "0x".toList "0800".toList "0000".toList 16 marked
  have meaningless (value : UInt32) : ¬ Denotes "0x_".toList value := by
    intro denotes
    have read := (accepted "0x_" value).mpr denotes
    cases read
  refine ⟨marked, ?_, meaningless, rejected "0x_" meaningless⟩
  rw [plain] at same
  cases outcome : readAddress "0x0800_0000" with
  | ok value =>
    rw [outcome] at same
    injection same with equal
    rw [equal]
  | error error =>
    rw [outcome] at same
    cases same

end GraphicsEngine.Session
