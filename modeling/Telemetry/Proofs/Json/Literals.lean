import Telemetry.Json.Parser
import Telemetry.Json.Printer

/-!
# The text of a value

A text is made of string literals and of characters outside of them. What stands outside is neither
a quote nor a control character: brackets and separators, the fixed words and the numerals
(`plainText_number`). Inside a literal quotes and controls are escaped (`Escaped`). `Spells` says of
a text that it is made like that, and which strings its literals stand for, and `spells_text` that
the text of every value is.

Two things follow for whoever reads such a text. It holds no control character, and so no line feed,
whatever its strings hold (`Spells.printable`). And its literals can be found without reading
anything else, and give back the strings they were written for (`Spells.literals?_eq`).
-/

namespace Telemetry.Json

/-! ## Strings and their literals -/

mutual

/-- The strings of a value, and the keys of its objects, in the order in which they are written. -/
def strings : Json → List String
  | .string s => [s]
  | .array elements => elementStrings elements
  | .object fields => fieldStrings fields
  | .null | .bool _ | .number _ | .unreadable => []

/-- `strings` of one element after the other. -/
def elementStrings : List Json → List String
  | [] => []
  | element :: rest => element.strings ++ elementStrings rest

/-- The key of one field after the other, each with the `strings` of its value. -/
def fieldStrings : List (String × Json) → List String
  | [] => []
  | (key, value) :: rest => key :: (value.strings ++ fieldStrings rest)

end

/-- The strings of an array that was encoded item by item are those of its items. -/
theorem elementStrings_map {β : Type} (encode : β → Json) (items : List β) :
    elementStrings (items.map encode) = items.flatMap fun item => (encode item).strings := by
  induction items with
  | nil => rw [List.map_nil, elementStrings, List.flatMap_nil]
  | cons item rest ih => rw [List.map_cons, elementStrings, ih, List.flatMap_cons]

/-- What is left of a text behind a string literal is shorter. -/
theorem length_of_pieces? {cs rest : List Char} {pieces : List Piece}
    (h : pieces? cs = some (pieces, rest)) : rest.length < cs.length := by
  fun_induction pieces? cs generalizing pieces with
  | case1 | case5 => cases h
  | case2 =>
    cases h
    exact Nat.lt_succ_self _
  | case3 a b c d others ih =>
    obtain ⟨_, -, h⟩ := Option.bind_eq_some_iff.mp h
    obtain ⟨_, hothers, heq⟩ := Option.bind_eq_some_iff.mp h
    cases heq
    exact Nat.lt_of_lt_of_le (ih hothers) (by simp only [List.length_cons]; omega)
  | case4 c others _ ih =>
    obtain ⟨_, -, h⟩ := Option.bind_eq_some_iff.mp h
    obtain ⟨_, hothers, heq⟩ := Option.bind_eq_some_iff.mp h
    cases heq
    exact Nat.lt_of_lt_of_le (ih hothers) (by simp only [List.length_cons]; omega)
  | case6 c others _ _ _ _ ih =>
    obtain ⟨_, hothers, heq⟩ := Option.bind_eq_some_iff.mp h
    cases heq
    exact Nat.lt_succ_of_lt (ih hothers)

/-- Reading a literal takes something off a text, so reading them all comes to an end. -/
theorem length_of_literal? {cs rest : List Char} {s : Option String}
    (h : literal? cs = some (s, rest)) : rest.length < cs.length := by
  obtain ⟨⟨pieces, rest'⟩, hpieces, heq⟩ := Option.bind_eq_some_iff.mp h
  cases heq
  exact length_of_pieces? hpieces

/-- The strings of all literals of a text, from quote to quote, if each of them can be read. -/
def literals? : List Char → Option (List String)
  | [] => some []
  | c :: cs =>
    if c = '"' then
      match _ : literal? cs with
      | some (some s, rest) => (literals? rest).map (s :: ·)
      | _ => none
    else literals? cs
termination_by cs => cs.length
decreasing_by
  · exact Nat.lt_succ_of_lt (length_of_literal? ‹_›)
  · exact Nat.lt_succ_self _

theorem literals?_nil : literals? [] = some [] := by
  rw [literals?]

/-- What stands outside of literals is passed over. -/
theorem literals?_cons_of_ne {c : Char} (h : c ≠ '"') (cs : List Char) :
    literals? (c :: cs) = literals? cs := by
  rw [literals?, if_neg h]

/-- A quote opens a literal, and the next one is looked for behind it. -/
theorem literals?_quote {cs rest : List Char} {s : String}
    (h : literal? cs = some (some s, rest)) :
    literals? ('"' :: cs) = (literals? rest).map (s :: ·) := by
  rw [literals?, if_pos rfl]
  split
  · rename_i s' rest' heq
    obtain ⟨rfl, rfl⟩ : s' = s ∧ rest' = rest := by simpa [h] using heq.symm
    rfl
  · rename_i hnone
    exact absurd h (hnone s rest)

/-! ## What stands outside of literals -/

/-- Characters outside of literals: no quote and no control. -/
def Plain (text : List Char) : Prop := ∀ c ∈ text, c ≠ '"' ∧ 0x20 ≤ c.toNat

instance (text : List Char) : Decidable (Plain text) :=
  decidable_of_iff (text.all fun c => c != '"' && Nat.ble 0x20 c.toNat) (by simp [Plain])

namespace Plain

variable {l m : List Char}

/-- Two texts without literals make one when they are joined. -/
theorem append (hl : Plain l) (hm : Plain m) : Plain (l ++ m) := by
  intro c hc
  rcases List.mem_append.mp hc with hc | hc
  · exact hl c hc
  · exact hm c hc

theorem subset (h : Plain m) (hsub : l ⊆ m) : Plain l := fun c hc => h c (hsub hc)

/-- Numerals need no quotes: a digit is neither one nor a control. -/
theorem of_isDigit (h : ∀ c ∈ l, c.isDigit = true) : Plain l := by
  intro c hc
  obtain ⟨hlow, hhigh⟩ := Char.isDigit_iff_toNat.mp (h c hc)
  have hlow : 48 ≤ c.toNat := hlow
  refine ⟨?_, Nat.le_trans (by decide) hlow⟩
  rintro rfl
  exact absurd hlow (by decide)

/-- The decimal digits of a number stand outside of literals. -/
theorem toDigits (n : Nat) : Plain (Nat.toDigits 10 n) :=
  of_isDigit fun _ hc => Nat.isDigit_of_mem_toDigits (by decide) (by decide) hc

theorem replicate_zero (n : Nat) : Plain (List.replicate n '0') := by
  intro c hc
  rw [List.eq_of_mem_replicate hc]
  decide

end Plain

/-- Texts that hold no quote and no control. -/
def PlainText (s : String) : Prop := Plain s.toList

instance (s : String) : Decidable (PlainText s) :=
  inferInstanceAs (Decidable (Plain s.toList))

theorem PlainText.append {s t : String} (hs : PlainText s) (ht : PlainText t) :
    PlainText (s ++ t) := by
  rw [PlainText, String.toList_append]
  exact Plain.append hs ht

theorem PlainText.ofList {l : List Char} (h : Plain l) : PlainText (String.ofList l) := by
  rw [PlainText, String.toList_ofList]
  exact h

theorem plainText_natToString (n : Nat) : PlainText (toString n) := by
  rw [PlainText, Nat.toString_eq_repr, Nat.toList_repr]
  exact .toDigits n

/-- A whole number is written with digits and a sign in front. -/
theorem plainText_intToString (n : Int) : PlainText (toString n) := by
  cases n with
  | ofNat n => exact plainText_natToString n
  | negSucc n => exact PlainText.append (s := "-") (by decide) (plainText_natToString (n + 1))

open Decimal

/-- Digits without their trailing zeros are digits. -/
theorem plain_ofMultiple (multiple : Nat) (place : Int) :
    Plain (Digits.ofMultiple multiple place).digits := by
  refine (Plain.toDigits multiple).subset fun c hc => ?_
  have hc := List.dropWhile_subset _ (List.mem_reverse.mp hc)
  exact List.mem_reverse.mp hc

/-- Whichever candidate is the shortest, it is made of digits. -/
theorem plain_shortest (tie : Tie) (mantissa : Nat) (exponent : Int) :
    Plain (shortest tie mantissa exponent).digits := by
  rw [shortest]
  split
  · exact plain_ofMultiple _ _
  · exact plain_ofMultiple _ _

/-- Written by position, digits are joined by zeros and a point. -/
theorem plainText_positional {d : Digits} (h : Plain d.digits) {suffix : String}
    (hsuffix : PlainText suffix) : PlainText (d.positional suffix) := by
  rw [Digits.positional]
  split
  · exact .append (by decide) (.ofList ((Plain.replicate_zero _).append h))
  · dsimp only
    split
    · exact .append (.ofList (h.append (Plain.replicate_zero _))) hsuffix
    · have htake := h.subset (List.take_subset (d.leading.toNat + 1) d.digits)
      have hdrop := h.subset (List.drop_subset (d.leading.toNat + 1) d.digits)
      exact .append (.append (.ofList htake) (by decide)) (.ofList hdrop)

/-- Written with an exponent, digits are joined by a point, a letter and a sign. -/
theorem plainText_scientific {d : Digits} (h : Plain d.digits) : PlainText d.scientific := by
  have hsign : PlainText (if d.leading < 0 then "-" else "+") := by
    split <;> decide
  rw [Digits.scientific]
  refine .append (.append (.append ?_ (by decide)) hsign) (plainText_natToString _)
  split
  · rename_i first second rest heq
    rw [heq] at h
    have hfirst : Plain [first] := h.subset (by simp)
    have hrest : Plain (second :: rest) := h.subset (List.subset_cons_self _ _)
    exact .append (.append (.ofList hfirst) (by decide)) (.ofList hrest)
  · exact .ofList h

theorem plainText_digits {layout : Layout} (hsuffix : PlainText layout.wholeSuffix) {d : Digits}
    (h : Plain d.digits) : PlainText (layout.digits d) := by
  rw [Layout.digits]
  split
  · exact plainText_positional h hsuffix
  · split
    · exact plainText_positional h hsuffix
    · exact plainText_scientific h

/-- A floating-point number is one of a few words or a sign with digits. -/
theorem plainText_double (x : Float) : PlainText (Layout.json.text x) := by
  have hsign : ∀ negative : Bool, PlainText (if negative then "-" else "") := by decide
  rw [Layout.text]
  split
  · decide
  · exact .append (hsign _) (by decide)
  · refine .append ?_ (by decide)
    split <;> decide
  · exact .append (hsign _) (plainText_digits (by decide) (plain_shortest _ _ _))

/-- A numeral holds no quote and no control. -/
theorem plainText_number (n : Number) : PlainText n.text := by
  cases n with
  | whole n => exact plainText_intToString n
  | real x => exact plainText_double x

/-! ## What stands in literals -/

theorem hexDigit_of_lt {n : Nat} (h : n < 16) : Hex.value? (Hex.digit n) = some n :=
  Hex.value?_digit ⟨n, h⟩

theorem printable_hexDigit {n : Nat} (h : n < 16) : 0x20 ≤ (Hex.digit n).toNat := by
  have hall : ∀ n : Fin 16, 0x20 ≤ (Hex.digit n).toNat := by decide
  exact hall ⟨n, h⟩

/-- The two digits that are written for a control character are read as its number. -/
theorem hexUnit?_control {n : Nat} (h : n < 0x20) :
    hexUnit? '0' '0' (Hex.digit (n / 16)) (Hex.digit (n % 16)) = some n := by
  have hzero : Hex.value? '0' = some 0 := by decide
  rw [hexUnit?, hzero, hexDigit_of_lt (by omega), hexDigit_of_lt (Nat.mod_lt n (by decide))]
  simp only [Option.bind_eq_bind, Option.bind_some, Option.pure_def, Option.some.injEq]
  omega

/-- A piece stands for a character: as itself, or as the unit of a control. -/
inductive Piece.StandsFor (c : Char) : Piece → Prop
  | char : StandsFor c (.char c)
  | unit (h : c.toNat < 0x20) : StandsFor c (.unit c.toNat)

/-- No control is half of a pair of units, so pieces can be joined one by one. -/
theorem joinPieces?_cons {c : Char} {piece : Piece} (h : piece.StandsFor c) (pieces : List Piece) :
    joinPieces? (piece :: pieces) = (joinPieces? pieces).map (c :: ·) := by
  cases h with
  | char => rw [joinPieces?]
  | unit h =>
    have hhigh : isHighHalf c.toNat = false := by
      rw [isHighHalf, Bool.and_eq_false_iff]
      exact .inl (decide_eq_false (by omega))
    have hlow : isLowHalf c.toNat = false := by
      rw [isLowHalf, Bool.and_eq_false_iff]
      exact .inl (decide_eq_false (by omega))
    cases pieces with
    | nil => simp [joinPieces?, hhigh, hlow, Char.ofNat_toNat]
    | cons next rest =>
      cases next <;> simp [joinPieces?, hhigh, hlow, Char.ofNat_toNat]

/-- The three ways in which a character stands in a literal. -/
inductive Escaped (c : Char) : List Char → Prop
  /-- by a letter behind a backslash -/
  | short (letter : Char) (h : unescape? letter = some c) (hunit : letter ≠ 'u')
    (hprintable : 0x20 ≤ letter.toNat) : Escaped c ['\\', letter]
  /-- by the digits of its number -/
  | unit (h : c.toNat < 0x20) :
    Escaped c ['\\', 'u', '0', '0', Hex.digit (c.toNat / 16), Hex.digit (c.toNat % 16)]
  | itself (hquote : c ≠ '"') (hbackslash : c ≠ '\\') (hprintable : 0x20 ≤ c.toNat) :
    Escaped c [c]

/-- Every character is written in one of the three ways. -/
theorem escaped_escape (c : Char) : Escaped c (escape c) := by
  fun_cases escape c with
  | case8 _ _ _ _ _ _ _ hcontrol => exact .unit hcontrol
  | case9 hquote hbackslash _ _ _ _ _ hcontrol =>
    exact .itself hquote hbackslash (Nat.le_of_not_lt hcontrol)
  | _ =>
    subst_vars
    exact .short _ (by decide) (by decide) (by decide)

/-- What is written for a character holds no control, even if it is one. -/
theorem Escaped.printable {c : Char} {cs : List Char} (h : Escaped c cs) :
    ∀ d ∈ cs, 0x20 ≤ d.toNat := by
  cases h with
  | short letter _ _ hprintable => simp [hprintable]
  | unit h =>
    have hhigh := printable_hexDigit (n := c.toNat / 16) (by omega)
    have hlow := printable_hexDigit (n := c.toNat % 16) (by omega)
    simp [hhigh, hlow]
  | itself _ _ hprintable => simpa using hprintable

/-- What is written for a character is read as a piece that stands for it. -/
theorem Escaped.pieces? {c : Char} {cs more rest : List Char} {pieces : List Piece}
    (h : Escaped c cs) (hmore : Json.pieces? more = some (pieces, rest)) :
    ∃ piece : Piece, piece.StandsFor c ∧
      Json.pieces? (cs ++ more) = some (piece :: pieces, rest) := by
  cases h with
  | short letter h hunit _ =>
    refine ⟨.char c, .char, ?_⟩
    rw [List.cons_append, List.singleton_append, Json.pieces?, h, hmore]
    · rfl
    · simp [hunit]
  | unit h =>
    refine ⟨.unit c.toNat, .unit h, ?_⟩
    simp only [List.cons_append, List.nil_append, Json.pieces?, hexUnit?_control h, hmore]
    rfl
  | itself hquote hbackslash hprintable =>
    refine ⟨.char c, .char, ?_⟩
    rw [List.singleton_append, Json.pieces?, if_neg (Nat.not_lt.mpr hprintable), hmore]
    · rfl
    all_goals simp [hquote, hbackslash]

/-- The rest of a literal gives back its characters. -/
theorem pieces?_writeChars (cs rest : List Char) :
    ∃ pieces, pieces? (writeChars cs rest) = some (pieces, rest) ∧
      joinPieces? pieces = some cs := by
  induction cs with
  | nil => exact ⟨[], rfl, rfl⟩
  | cons c cs ih =>
    obtain ⟨pieces, hpieces, hjoin⟩ := ih
    obtain ⟨piece, hpiece, hread⟩ := (escaped_escape c).pieces? hpieces
    refine ⟨piece :: pieces, hread, ?_⟩
    rw [joinPieces?_cons hpiece, hjoin]
    rfl

/-- A literal gives back the string that it was written for. -/
theorem literal?_writeChars (s : String) (rest : List Char) :
    literal? (writeChars s.toList rest) = some (some s, rest) := by
  obtain ⟨pieces, hpieces, hjoin⟩ := pieces?_writeChars s.toList rest
  rw [literal?, hpieces]
  simp [hjoin]

/-- A literal holds no control unless the text behind it does. -/
theorem printable_writeChars {cs rest : List Char} (h : ∀ c ∈ rest, 0x20 ≤ c.toNat) :
    ∀ c ∈ writeChars cs rest, 0x20 ≤ c.toNat := by
  induction cs with
  | nil => exact List.forall_mem_cons.mpr ⟨by decide, h⟩
  | cons c cs ih => exact List.forall_mem_append.mpr ⟨(escaped_escape c).printable, ih⟩

/-! ## Whole texts -/

/-- A text is made of literals, which stand for some strings, and of other characters. -/
inductive Spells : List Char → List String → Prop
  | nil : Spells [] []
  | plain {c : Char} {cs : List Char} {ss : List String} (h : c ≠ '"' ∧ 0x20 ≤ c.toNat)
    (hrest : Spells cs ss) : Spells (c :: cs) ss
  | literal (s : String) {cs : List Char} {ss : List String} (hrest : Spells cs ss) :
    Spells (writeString s cs) (s :: ss)

namespace Spells

variable {cs : List Char} {ss : List String}

/-- No character of a text is a control. -/
theorem printable (h : Spells cs ss) : ∀ c ∈ cs, 0x20 ≤ c.toNat := by
  induction h with
  | nil => exact List.forall_mem_nil _
  | plain h _ ih => exact List.forall_mem_cons.mpr ⟨h.2, ih⟩
  | literal s _ ih => exact List.forall_mem_cons.mpr ⟨by decide, printable_writeChars ih⟩

/-- The literals of a text give back its strings. -/
theorem literals?_eq (h : Spells cs ss) : literals? cs = some ss := by
  induction h with
  | nil => exact literals?_nil
  | plain h _ ih => rw [literals?_cons_of_ne h.1, ih]
  | literal s _ ih =>
    rw [writeString, literals?_quote (literal?_writeChars s _), ih]
    rfl

/-- Characters outside of literals add no string to the text behind them. -/
theorem append (h : Spells cs ss) {l : List Char} (hl : Plain l) : Spells (l ++ cs) ss := by
  induction l with
  | nil => exact h
  | cons c l ih =>
    obtain ⟨hc, hl⟩ := List.forall_mem_cons.mp hl
    exact .plain hc (ih hl)

end Spells

mutual

/-- A value in front of a text adds its strings to those of the text. -/
theorem Spells.write {rest : List Char} {ss : List String} (h : Spells rest ss) :
    ∀ j : Json, Spells (j.write rest) (j.strings ++ ss)
  | .null | .unreadable => by
    rw [Json.write, strings]
    exact h.append (l := ['n', 'u', 'l', 'l']) (by decide)
  | .bool true => by
    rw [Json.write, strings]
    exact h.append (l := ['t', 'r', 'u', 'e']) (by decide)
  | .bool false => by
    rw [Json.write, strings]
    exact h.append (l := ['f', 'a', 'l', 's', 'e']) (by decide)
  | .number n => by
    rw [Json.write, strings]
    exact h.append (plainText_number n)
  | .string s => by
    rw [Json.write, strings]
    exact .literal s h
  | .array [] => by
    rw [Json.write, strings, elementStrings]
    exact h.append (l := ['[', ']']) (by decide)
  | .array (first :: others) => by
    rw [Json.write, strings, elementStrings, List.append_assoc]
    exact .plain (by decide) ((h.writeElements others).write first)
  | .object [] => by
    rw [Json.write, strings, fieldStrings]
    exact h.append (l := ['{', '}']) (by decide)
  | .object ((key, value) :: others) => by
    rw [Json.write, strings, fieldStrings, List.cons_append, List.append_assoc]
    have hvalue := (h.writeFields others).write value
    exact .plain (by decide) (.literal key (.plain (by decide) hvalue))

/-- What is left of an array in front of a text adds the strings of its elements. -/
theorem Spells.writeElements {rest : List Char} {ss : List String} (h : Spells rest ss) :
    ∀ elements : List Json,
      Spells (Json.writeElements elements rest) (elementStrings elements ++ ss)
  | [] => by
    rw [Json.writeElements, elementStrings]
    exact .plain (by decide) h
  | element :: others => by
    rw [Json.writeElements, elementStrings, List.append_assoc]
    exact .plain (by decide) ((h.writeElements others).write element)

/-- What is left of an object in front of a text adds the keys and strings of its fields. -/
theorem Spells.writeFields {rest : List Char} {ss : List String} (h : Spells rest ss) :
    ∀ fields : List (String × Json),
      Spells (Json.writeFields fields rest) (fieldStrings fields ++ ss)
  | [] => by
    rw [Json.writeFields, fieldStrings]
    exact .plain (by decide) h
  | (key, value) :: others => by
    rw [Json.writeFields, fieldStrings, List.cons_append, List.append_assoc]
    have hvalue := (h.writeFields others).write value
    exact .plain (by decide) (.literal key (.plain (by decide) hvalue))

end

/-- The text of a value is made of the literals of its strings and of other characters. -/
theorem spells_text (j : Json) : Spells j.text.toList j.strings := by
  rw [text, String.toList_ofList]
  simpa using Spells.nil.write j

end Telemetry.Json
