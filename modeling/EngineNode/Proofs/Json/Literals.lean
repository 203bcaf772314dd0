import EngineNode.Json.Raw
import Mathlib.Data.List.TakeWhile

/-!
The literals of a document, and what is passed over on the way.

A scanner takes the front of a text. What the scanner of numbers takes depends on nothing behind it
but the next character, and the one of strings on nothing at all behind the closing quote. So a
literal is found again wherever it stands.

* `Scans`: a scanner that finds what it takes in front of other rests too.
* `scans_numberLiteral`, `stringContent?_scans`: the scanners of numbers and of strings.
* `Cursor.Passes`: how a cursor moves over a text, and where it is then.
-/

namespace EngineNode.Json

/-- The place behind a text. -/
def Position.over (p : Position) (text : List Char) : Position := text.foldl Position.advance p

@[simp] theorem Position.over_nil (p : Position) : p.over [] = p := rfl

@[simp] theorem Position.over_cons (p : Position) (c : Char) (text : List Char) :
    p.over (c :: text) = (p.advance c).over text := rfl

@[simp] theorem Position.over_append (p : Position) (text more : List Char) :
    p.over (text ++ more) = (p.over text).over more :=
  List.foldl_append

namespace Raw

/-! ### Scanners -/

/-- The characters that may stand behind a value. -/
def isEnd (c : Char) : Bool := Cursor.isBlank c || c = ',' || c = ']' || c = '\x7d'

/-- The characters of numbers. -/
def isNumeral (c : Char) : Bool := c.isDigit || c = '-' || c = '+' || c = '.' || c = 'e' || c = 'E'

/-- A text starts like another one, or it starts with a character that may stand behind a value. -/
def Continues (rest rest' : List Char) : Prop :=
  ∀ c ∈ rest'.head?, c ∈ rest.head? ∨ isEnd c = true

theorem isNumeral_eq_false_of_isEnd {c : Char} (ends : isEnd c = true) : isNumeral c = false := by
  simp only [isEnd, Cursor.isBlank, Bool.or_eq_true, decide_eq_true_eq] at ends
  rcases ends with (((((rfl | rfl) | rfl) | rfl) | rfl) | rfl) | rfl <;> decide

/-- The front that a scanner takes consists of characters of numbers, and the scanner takes it in
front of every other rest that does not go on with it. -/
def Scans (scan : List Char → Option (List Char × List Char)) : Prop :=
  ∀ text taken rest, scan text = some (taken, rest) →
    text = taken ++ rest ∧ (∀ c ∈ taken, isNumeral c = true) ∧
      ∀ rest', Continues rest rest' → scan (taken ++ rest') = some (taken, rest')

theorem Continues.append {rest rest' : List Char} (continues : Continues rest rest')
    (text : List Char) : Continues (text ++ rest) (text ++ rest') := by
  cases text with
  | nil => exact continues
  | cons c text => exact fun _ starts => .inl starts

/-- What does not start a rest does not start one that continues it, if it is a numeral. -/
theorem Continues.head_ne {rest rest' : List Char} (continues : Continues rest rest') {c : Char}
    (numeral : isNumeral c = true) (absent : c ∉ rest.head?) : c ∉ rest'.head? := by
  intro starts
  rcases continues c starts with again | ends
  · exact absent again
  · rw [isNumeral_eq_false_of_isEnd ends] at numeral
    cases numeral

theorem isNumeral_of_isDigit {c : Char} (digit : c.isDigit = true) : isNumeral c = true := by
  simp [isNumeral, digit]

/-- A text is taken up to the first character that is not of a class. -/
theorem span_append {p : Char → Bool} {body rest : List Char} (inside : ∀ c ∈ body, p c = true)
    (stops : ∀ c ∈ rest.head?, p c = false) :
    (body ++ rest).takeWhile p = body ∧ (body ++ rest).dropWhile p = rest := by
  rw [List.takeWhile_append_of_pos inside, List.dropWhile_append_of_pos inside]
  cases rest with
  | nil => simp
  | cons c rest => simp [stops c rfl]

theorem dropWhile_stops (p : Char → Bool) (text : List Char) :
    ∀ c ∈ (text.dropWhile p).head?, p c = false := by
  intro c starts
  have stopped := List.head?_dropWhile_not p text
  rw [Option.mem_def.mp starts] at stopped
  exact stopped

/-- Digits are taken up to the first character that is none. -/
theorem digits?_eq_some_iff {text taken rest : List Char} :
    digits? text = some (taken, rest) ↔ text = taken ++ rest ∧ taken ≠ [] ∧
      (∀ c ∈ taken, c.isDigit = true) ∧ ∀ c ∈ rest.head?, c.isDigit = false := by
  unfold digits?
  dsimp only
  constructor
  · intro scanned
    split at scanned
    · cases scanned
    · rename_i nonempty
      cases scanned
      exact ⟨List.takeWhile_append_dropWhile.symm, by simpa using nonempty,
        fun c member => List.mem_takeWhile_imp member, dropWhile_stops _ text⟩
  · rintro ⟨rfl, nonempty, digits, stops⟩
    obtain ⟨taken_, left⟩ := span_append digits stops
    rw [taken_, left, if_neg (by simpa using nonempty)]

theorem scans_digits : Scans digits? := by
  intro text taken rest scanned
  obtain ⟨rfl, nonempty, digits, stops⟩ := digits?_eq_some_iff.mp scanned
  refine ⟨rfl, fun c member => isNumeral_of_isDigit (digits c member), fun rest' continues => ?_⟩
  refine digits?_eq_some_iff.mpr ⟨rfl, nonempty, digits, fun c starts => ?_⟩
  by_contra digit
  have digit : c.isDigit = true := by simpa using digit
  refine continues.head_ne (isNumeral_of_isDigit digit) (fun again => ?_) starts
  rw [stops c again] at digit
  cases digit

theorem scans_integerPart : Scans integerPart? := by
  intro text taken rest scanned
  unfold integerPart? at scanned
  split at scanned
  case h_1 rest_ =>
    split at scanned
    · cases scanned
    · rename_i stops
      cases scanned
      refine ⟨rfl, by simp [isNumeral], fun rest' continues => ?_⟩
      have stops' : ¬ rest'.head?.any Char.isDigit = true := by
        rw [Option.any_eq_true]
        rintro ⟨c, starts, digit⟩
        refine continues.head_ne (isNumeral_of_isDigit digit) (fun again => stops ?_) starts
        rw [Option.any_eq_true]
        exact ⟨c, again, digit⟩
      simp [integerPart?, stops']
  case h_2 other =>
    obtain ⟨rfl, numerals, again⟩ := scans_digits text taken rest scanned
    refine ⟨rfl, numerals, fun rest' continues => ?_⟩
    have nonempty := (digits?_eq_some_iff.mp scanned).2.1
    obtain ⟨c, taken, rfl⟩ := List.exists_cons_of_ne_nil nonempty
    rw [← again rest' continues, integerPart?]
    rintro more start
    cases start
    exact other _ rfl

theorem scans_fractionPart : Scans fractionPart? := by
  intro text taken rest scanned
  unfold fractionPart? at scanned
  split at scanned
  case h_1 digits =>
    obtain ⟨⟨taken_, rest_⟩, scanned, made⟩ := Option.map_eq_some_iff.mp scanned
    cases made
    obtain ⟨rfl, numerals, again⟩ := scans_digits _ _ _ scanned
    refine ⟨rfl, ?_, fun rest' continues => ?_⟩
    · intro c member
      rcases List.mem_cons.mp member with rfl | member
      · rfl
      · exact numerals c member
    · simp [fractionPart?, again rest' continues]
  case h_2 other =>
    cases scanned
    refine ⟨rfl, nofun, fun rest' continues => ?_⟩
    rw [List.nil_append, fractionPart?]
    rintro more rfl
    refine continues.head_ne rfl (fun again => ?_) rfl
    obtain ⟨more', rfl⟩ := List.head?_eq_some_iff.mp again
    exact other _ rfl

/-- What starts an exponent. -/
def isExponentMark (c : Char) : Bool := c = 'e' || c = 'E'

theorem exponentPart?_of_unmarked {text : List Char}
    (unmarked : ∀ c ∈ text.head?, isExponentMark c = false) :
    exponentPart? text = some ([], text) := by
  cases text with
  | nil => rfl
  | cons c text =>
      have unmarked : isExponentMark c = false := unmarked c rfl
      rw [isExponentMark] at unmarked
      simp [exponentPart?, unmarked]

/-- An exponent is either not there, or a mark, perhaps a sign, and digits. -/
theorem exponentPart?_cases {text taken rest : List Char}
    (scanned : exponentPart? text = some (taken, rest)) :
    (taken = [] ∧ text = rest ∧ ∀ c ∈ text.head?, isExponentMark c = false) ∨
    (∃ mark sign digits more, isExponentMark mark = true ∧ (sign = '+' ∨ sign = '-') ∧
      digits? more = some (digits, rest) ∧ taken = mark :: sign :: digits ∧
      text = mark :: sign :: more) ∨
    ∃ mark digits more, isExponentMark mark = true ∧ digits? more = some (digits, rest) ∧
      taken = mark :: digits ∧ text = mark :: more := by
  unfold exponentPart? at scanned
  split at scanned
  case h_2 =>
    cases scanned
    exact .inl ⟨rfl, rfl, nofun⟩
  case h_1 mark text =>
    split at scanned
    case isFalse unmarked =>
      cases scanned
      refine .inl ⟨rfl, rfl, fun c starts => ?_⟩
      cases Option.some.inj starts
      exact Bool.eq_false_iff.mpr unmarked
    case isTrue marked =>
      split at scanned
      case h_2 => cases scanned
      case h_1 sign text =>
        split at scanned
        case isTrue signed =>
          obtain ⟨⟨digits, rest⟩, scanned, made⟩ := Option.map_eq_some_iff.mp scanned
          cases made
          exact .inr (.inl ⟨mark, sign, digits, text, marked, by simpa using signed, scanned, rfl,
            rfl⟩)
        case isFalse unsigned =>
          obtain ⟨⟨digits, rest⟩, scanned, made⟩ := Option.map_eq_some_iff.mp scanned
          cases made
          exact .inr (.inr ⟨mark, digits, _, marked, scanned, rfl, rfl⟩)

theorem scans_exponentPart : Scans exponentPart? := by
  have numeral {c : Char} (marked : isExponentMark c = true) : isNumeral c = true := by
    simp only [isExponentMark, Bool.or_eq_true, decide_eq_true_eq] at marked
    rcases marked with rfl | rfl <;> rfl
  intro text taken rest scanned
  rcases exponentPart?_cases scanned with ⟨rfl, rfl, unmarked⟩ |
    ⟨mark, sign, digits, more, marked, signed, found, rfl, rfl⟩ |
    ⟨mark, digits, more, marked, found, rfl, rfl⟩
  · refine ⟨rfl, nofun, fun rest' continues => exponentPart?_of_unmarked fun c starts => ?_⟩
    by_contra marked
    have marked : isExponentMark c = true := by simpa using marked
    refine continues.head_ne (numeral marked) (fun again => ?_) starts
    rw [unmarked c again] at marked
    cases marked
  · obtain ⟨rfl, numerals, again⟩ := scans_digits _ _ _ found
    have isSign : isNumeral sign = true := by rcases signed with rfl | rfl <;> rfl
    refine ⟨rfl, ?_, fun rest' continues => ?_⟩
    · simp only [List.forall_mem_cons]
      exact ⟨numeral marked, isSign, numerals⟩
    · rw [isExponentMark] at marked
      have signed : (sign = '+' || sign = '-') = true := by simpa using signed
      simp only [List.cons_append, exponentPart?, marked, signed, if_true, again rest' continues,
        Option.map_some]
  · obtain ⟨rfl, numerals, again⟩ := scans_digits _ _ _ found
    obtain ⟨-, nonempty, areDigits, -⟩ := digits?_eq_some_iff.mp found
    refine ⟨rfl, ?_, fun rest' continues => ?_⟩
    · simp only [List.forall_mem_cons]
      exact ⟨numeral marked, numerals⟩
    · obtain ⟨digit, digits, rfl⟩ := List.exists_cons_of_ne_nil nonempty
      have isDigit := areDigits digit List.mem_cons_self
      have unsigned : (digit = '+' || digit = '-') = false := by
        by_contra signed
        rw [Bool.not_eq_false, Bool.or_eq_true, decide_eq_true_eq, decide_eq_true_eq] at signed
        rcases signed with rfl | rfl <;> cases isDigit
      rw [isExponentMark] at marked
      have again := again rest' continues
      rw [List.cons_append] at again
      simp only [List.cons_append, exponentPart?, marked, unsigned, Bool.false_eq_true, if_true,
        if_false, again, Option.map_some]

/-- The digits before the point are there. -/
theorem integerPart?_starts {text taken rest : List Char}
    (scanned : integerPart? text = some (taken, rest)) :
    ∃ c more, text = c :: more ∧ c.isDigit = true := by
  unfold integerPart? at scanned
  split at scanned
  · exact ⟨_, _, rfl, rfl⟩
  · obtain ⟨rfl, nonempty, digits, -⟩ := digits?_eq_some_iff.mp scanned
    obtain ⟨c, more, rfl⟩ := List.exists_cons_of_ne_nil nonempty
    exact ⟨c, more ++ rest, rfl, digits c List.mem_cons_self⟩

/-- The literal of a number behind its sign. -/
def unsignedLiteral? (sign chars : List Char) : Option (List Char × List Char) := do
  let (whole, chars) ← integerPart? chars
  let (fraction, chars) ← fractionPart? chars
  let (exponent, chars) ← exponentPart? chars
  return (sign ++ whole ++ fraction ++ exponent, chars)

theorem numberLiteral?_minus (chars : List Char) :
    numberLiteral? ('-' :: chars) = unsignedLiteral? ['-'] chars := rfl

theorem numberLiteral?_of_unsigned {text : List Char} (unsigned : '-' ∉ text.head?) :
    numberLiteral? text = unsignedLiteral? [] text := by
  unfold numberLiteral?
  split
  rename_i sign chars made
  split at made
  · exact absurd rfl unsigned
  · cases made
    rfl

theorem unsignedLiteral?_eq_some_iff {sign chars taken rest : List Char} :
    unsignedLiteral? sign chars = some (taken, rest) ↔
      ∃ whole fraction exponent more last, integerPart? chars = some (whole, more) ∧
        fractionPart? more = some (fraction, last) ∧
        exponentPart? last = some (exponent, rest) ∧
        taken = sign ++ whole ++ fraction ++ exponent := by
  simp only [unsignedLiteral?, Option.bind_eq_bind, Option.bind_eq_some_iff, Option.pure_def,
    Option.some.injEq, Prod.mk.injEq, Prod.exists]
  constructor
  · rintro ⟨whole, more, first, fraction, last, second, exponent, rest', third, rfl, rfl⟩
    exact ⟨whole, fraction, exponent, more, last, first, second, third, rfl⟩
  · rintro ⟨whole, fraction, exponent, more, last, first, second, third, rfl⟩
    exact ⟨whole, more, first, fraction, last, second, exponent, rest, third, rfl, rfl⟩

/-- The parts of the literal of a number. -/
theorem numberLiteral?_eq_some_iff {text taken rest : List Char} :
    numberLiteral? text = some (taken, rest) ↔
      ∃ sign chars, (sign = ['-'] ∨ sign = []) ∧ text = sign ++ chars ∧
        unsignedLiteral? sign chars = some (taken, rest) := by
  -- Behind a sign or without one, the literal goes on with a digit.
  constructor
  · intro scanned
    by_cases signed : '-' ∈ text.head?
    · obtain ⟨chars, rfl⟩ := List.head?_eq_some_iff.mp signed
      rw [numberLiteral?_minus] at scanned
      exact ⟨['-'], chars, .inl rfl, rfl, scanned⟩
    · rw [numberLiteral?_of_unsigned signed] at scanned
      exact ⟨[], text, .inr rfl, rfl, scanned⟩
  · rintro ⟨sign, chars, rfl | rfl, rfl, scanned⟩
    · exact (numberLiteral?_minus chars).trans scanned
    · obtain ⟨whole, fraction, exponent, more, last, first, -⟩ :=
        unsignedLiteral?_eq_some_iff.mp scanned
      obtain ⟨c, left, rfl, digit⟩ := integerPart?_starts first
      refine (numberLiteral?_of_unsigned ?_).trans scanned
      intro starts
      cases Option.some.inj starts
      cases digit

theorem scans_numberLiteral : Scans numberLiteral? := by
  intro text taken rest scanned
  obtain ⟨sign, chars, signed, rfl, found⟩ := numberLiteral?_eq_some_iff.mp scanned
  obtain ⟨whole, fraction, exponent, more, last, first, second, third, rfl⟩ :=
    unsignedLiteral?_eq_some_iff.mp found
  obtain ⟨rfl, wholeNumerals, againFirst⟩ := scans_integerPart _ _ _ first
  obtain ⟨rfl, fractionNumerals, againSecond⟩ := scans_fractionPart _ _ _ second
  obtain ⟨rfl, exponentNumerals, againThird⟩ := scans_exponentPart _ _ _ third
  refine ⟨by simp only [List.append_assoc], ?_, fun rest' continues => ?_⟩
  · have signNumerals : ∀ c ∈ sign, isNumeral c = true := by
      rcases signed with rfl | rfl <;> simp [isNumeral]
    simp only [List.forall_mem_append]
    exact ⟨⟨⟨signNumerals, wholeNumerals⟩, fractionNumerals⟩, exponentNumerals⟩
  · -- Each part is found again, since what follows it starts as before.
    refine numberLiteral?_eq_some_iff.mpr ⟨sign, whole ++ (fraction ++ (exponent ++ rest')), signed,
      by simp only [List.append_assoc], unsignedLiteral?_eq_some_iff.mpr ?_⟩
    exact ⟨whole, fraction, exponent, fraction ++ (exponent ++ rest'), exponent ++ rest',
      againFirst _ ((continues.append exponent).append fraction),
      againSecond _ (continues.append exponent), againThird _ continues, rfl⟩

/-! ### Strings -/

/-- The content of a string ends at the closing quote, whatever follows. -/
theorem stringContent?_scans {text content rest : List Char}
    (scanned : stringContent? text = some (content, rest)) :
    text = content ++ '"' :: rest ∧
      ∀ rest', stringContent? (content ++ '"' :: rest') = some (content, rest') := by
  fun_induction stringContent? text generalizing content rest with
  | case1 | case4 | case6 | case7 => cases scanned
  | case2 =>
      cases scanned
      exact ⟨rfl, fun _ => rfl⟩
  | case3 a b c d text digits ih =>
      obtain ⟨⟨content, rest⟩, scanned, made⟩ := Option.map_eq_some_iff.mp scanned
      cases made
      obtain ⟨rfl, again⟩ := ih scanned
      refine ⟨rfl, fun rest' => ?_⟩
      simp only [List.cons_append, stringContent?, digits, if_true, again rest', Option.map_some]
  | case5 c text notHex escape ih =>
      obtain ⟨⟨content, rest⟩, scanned, made⟩ := Option.map_eq_some_iff.mp scanned
      cases made
      obtain ⟨rfl, again⟩ := ih scanned
      refine ⟨rfl, fun rest' => ?_⟩
      rw [List.cons_append, List.cons_append, stringContent?, if_pos escape, again rest']
      · rfl
      · rintro a b c d text rfl
        simp at escape
  | case8 c text notQuote notHex notEscape plain ih =>
      obtain ⟨⟨content, rest⟩, scanned, made⟩ := Option.map_eq_some_iff.mp scanned
      cases made
      obtain ⟨rfl, again⟩ := ih scanned
      have notBackslash : c ≠ '\\' := by
        rintro rfl
        simp at plain
      refine ⟨rfl, fun rest' => ?_⟩
      rw [List.cons_append, stringContent?, if_neg plain, again rest']
      · rfl
      · exact notQuote
      · exact fun _ _ _ _ _ same => absurd same notBackslash
      · exact fun _ _ same => absurd same notBackslash

/-! ### Literals that stand alone -/

/-- Blanks between the parts of a document. -/
def Blanks : Type := { text : List Char // ∀ c ∈ text, Cursor.isBlank c = true }

/-- No blanks. -/
def noBlanks : Blanks := ⟨[], fun _ member => absurd member List.not_mem_nil⟩

@[simp] theorem val_noBlanks : noBlanks.val = [] := rfl

/-- The literal of a number. -/
def NumberText : Type := { text : List Char // numberLiteral? text = some (text, []) }

/-- The content of a string, with its escapes. -/
def StringText : Type := { text : List Char // stringContent? (text ++ ['"']) = some (text, []) }

/-- Nothing continues every rest. -/
theorem continues_nil (rest : List Char) : Continues rest [] := nofun

theorem exists_numberText {text literal rest : List Char}
    (scanned : numberLiteral? text = some (literal, rest)) :
    ∃ number : NumberText, number.val = literal ∧ text = literal ++ rest := by
  obtain ⟨split, -, again⟩ := scans_numberLiteral _ _ _ scanned
  have alone := again [] (continues_nil rest)
  rw [List.append_nil] at alone
  exact ⟨⟨literal, alone⟩, rfl, split⟩

/-- The literal of a number is found in front of everything that may stand behind a value. -/
theorem numberLiteral?_append (number : NumberText) {rest : List Char}
    (ends : ∀ c ∈ rest.head?, isEnd c = true) :
    numberLiteral? (number.val ++ rest) = some (number.val, rest) :=
  (scans_numberLiteral _ _ _ number.property).2.2 rest fun c starts => .inr (ends c starts)

theorem exists_stringText {text content rest : List Char}
    (scanned : stringContent? text = some (content, rest)) :
    ∃ string : StringText, string.val = content ∧ text = content ++ '"' :: rest := by
  obtain ⟨split, again⟩ := stringContent?_scans scanned
  exact ⟨⟨content, again []⟩, rfl, split⟩

theorem stringContent?_append (string : StringText) (rest : List Char) :
    stringContent? (string.val ++ '"' :: rest) = some (string.val, rest) :=
  (stringContent?_scans string.property).2 rest

/-- The literal of a number starts with a digit or a minus. -/
theorem NumberText.starts (number : NumberText) :
    ∃ c text, number.val = c :: text ∧ (c = '-' ∨ c.isDigit = true) := by
  obtain ⟨sign, chars, signed, split, scanned⟩ := numberLiteral?_eq_some_iff.mp number.property
  obtain ⟨whole, fraction, exponent, more, last, first, -⟩ :=
    unsignedLiteral?_eq_some_iff.mp scanned
  obtain ⟨c, left, rfl, digit⟩ := integerPart?_starts first
  rcases signed with rfl | rfl
  · exact ⟨'-', c :: left, split, .inl rfl⟩
  · exact ⟨c, left, split, .inr digit⟩

/-- The characters of numbers are bytes of one line. -/
theorem advance_of_isNumeral {c : Char} (numeral : isNumeral c = true) (p : Position) :
    p.advance c = p.shift 1 := by
  have ascii : c.val ≤ 0x7F ∧ c ≠ '\n' := by
    simp only [isNumeral, Bool.or_eq_true, decide_eq_true_eq] at numeral
    rcases numeral with ((((digit | rfl) | rfl) | rfl) | rfl) | rfl
    · simp only [Char.isDigit, Bool.and_eq_true, decide_eq_true_eq] at digit
      refine ⟨UInt32.le_trans digit.2 (by decide), ?_⟩
      rintro rfl
      exact absurd digit.1 (by decide)
    all_goals decide
  have single : c.utf8Size = 1 := if_pos ascii.1
  rw [Position.advance, if_neg ascii.2, single]
  rfl

theorem over_of_isNumeral {text : List Char} (numerals : ∀ c ∈ text, isNumeral c = true)
    (p : Position) : p.over text = p.shift text.length := by
  induction text generalizing p with
  | nil => rfl
  | cons c text ih =>
      rw [Position.over_cons, advance_of_isNumeral (numerals c List.mem_cons_self),
        ih fun c member => numerals c (List.mem_cons_of_mem _ member)]
      rw [Position.shift, Position.shift, Position.shift, List.length_cons, Nat.add_assoc,
        Nat.add_comm 1]

theorem over_numberText (number : NumberText) (p : Position) :
    p.over number.val = p.shift number.val.length :=
  over_of_isNumeral (scans_numberLiteral _ _ _ number.property).2.1 p

/-! ### Cursors -/

namespace Cursor

/-- A cursor moves over a text. -/
structure Passes (cursor : Cursor) (text : List Char) (next : Cursor) : Prop where
  rest : cursor.rest = text ++ next.rest
  position : next.position = cursor.position.over text

theorem Passes.trans {cursor next last : Cursor} {text more : List Char}
    (first : cursor.Passes text next) (second : next.Passes more last) :
    cursor.Passes (text ++ more) last where
  rest := by rw [first.rest, second.rest, List.append_assoc]
  position := by rw [second.position, first.position, Position.over_append]

variable {cursor next : Cursor} {p : Position} {rest : List Char}

theorem skip_cons (c : Char) : skip ⟨c :: rest, p⟩ = ⟨rest, p.advance c⟩ := rfl

theorem passes_skip {c : Char} (starts : cursor.rest = c :: rest) :
    cursor.Passes [c] cursor.skip := by
  unfold skip
  rw [starts]
  exact ⟨starts, rfl⟩

theorem passes_skipBlanks (cursor : Cursor) :
    ∃ blanks : Blanks, cursor.Passes blanks.val cursor.skipBlanks :=
  ⟨⟨cursor.rest.takeWhile isBlank, fun _ member => List.mem_takeWhile_imp member⟩,
    List.takeWhile_append_dropWhile.symm, rfl⟩

theorem skipBlanks_append (blanks : Blanks) (stops : ∀ c ∈ rest.head?, isBlank c = false) :
    skipBlanks ⟨blanks.val ++ rest, p⟩ = ⟨rest, p.over blanks.val⟩ := by
  obtain ⟨taken, left⟩ := span_append blanks.property stops
  rw [skipBlanks, skipWhile, taken, left]
  rfl

theorem passes_word {word : List Char} (found : word? word cursor = some next) :
    cursor.Passes word next := by
  induction word generalizing cursor with
  | nil =>
      cases found
      exact ⟨rfl, rfl⟩
  | cons c word ih =>
      rw [word?] at found
      split at found
      · rename_i starts
        obtain ⟨rest, starts⟩ := List.head?_eq_some_iff.mp starts
        exact (passes_skip starts).trans (ih found)
      · cases found

theorem word?_append (word rest : List Char) (p : Position) :
    word? word ⟨word ++ rest, p⟩ = some ⟨rest, p.over word⟩ := by
  induction word generalizing p with
  | nil => rfl
  | cons c word ih =>
      rw [word?, List.cons_append, if_pos (List.head?_cons ..)]
      exact ih (p.advance c)

end Cursor

open Cursor

theorem passes_string {cursor next : Cursor} {content : List Char}
    (found : string? cursor = some (content, next)) :
    ∃ string : StringText, string.val = content ∧ cursor.Passes (string.val ++ ['"']) next := by
  unfold string? at found
  obtain ⟨⟨content, rest⟩, scanned, made⟩ := Option.bind_eq_some_iff.mp found
  cases made
  obtain ⟨string, rfl, split⟩ := exists_stringText scanned
  refine ⟨string, rfl, ?_, ?_⟩
  · rw [split, List.append_assoc]
    rfl
  · rw [Position.over_append]
    rfl

theorem string?_append (string : StringText) (rest : List Char) (p : Position) :
    string? ⟨string.val ++ '"' :: rest, p⟩ =
      some (string.val, ⟨rest, p.over (string.val ++ ['"'])⟩) := by
  unfold string?
  rw [stringContent?_append, Position.over_append]
  rfl

end Raw

end EngineNode.Json
