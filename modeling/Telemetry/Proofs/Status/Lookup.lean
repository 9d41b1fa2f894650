import Telemetry.Proofs.Text.Lines
import Telemetry.Status

/-!
# Which line of a status table is found

A line gives a number for a field if the field is all that stands before its first colon and the
first token behind that colon is a decimal numeral that fits 64 bits (`Gives`). What is found for a
field is what the first of these lines gives (`find?_eq_some_iff`). All other lines are passed over,
so nothing that is wrong with a line hides the lines after it (`find?_append_line`), and in a table
that was written row by row the first row of a name is found (`find?_render`).

Lines are taken as what stands between line feeds. Where the text ends, and whether a carriage
return stands at the end of a line, makes no difference to what a line gives (`lineNumber?_chomp`,
`findSome?_linesOf`).
-/

namespace Telemetry

/-! ## Tokens and numerals -/

namespace Text

/-- The first token of a text: nothing but blanks stand before it, and it ends at a blank or where
the text ends. -/
def StartsWith (token text : List Char) : Prop :=
  ∃ blanks rest, text = blanks ++ token ++ rest ∧ (∀ c ∈ blanks, isBlank c = true) ∧
    token ≠ [] ∧ (∀ c ∈ token, isBlank c = false) ∧ ∀ c ∈ rest.head?, isBlank c = true

/-- The first token is what stands between the blanks in front and the first blank behind. -/
theorem firstToken?_eq_some_iff {text token : List Char} :
    firstToken? text = some token ↔ StartsWith token text := by
  constructor
  · intro h
    rw [firstToken?] at h
    split at h
    · cases h
    · rename_i hne
      obtain rfl := Option.some.inj h
      have hblanks := List.takeWhile_append_dropWhile (p := isBlank) (l := text)
      have hrest := List.takeWhile_append_dropWhile (p := fun c => !isBlank c)
        (l := text.dropWhile isBlank)
      refine ⟨text.takeWhile isBlank, (text.dropWhile isBlank).dropWhile fun c => !isBlank c, ?_,
        fun c hc => ?_, hne, fun c hc => ?_, fun c hc => ?_⟩
      · rw [List.append_assoc, hrest, hblanks]
      · exact List.all_eq_true.mp List.all_takeWhile c hc
      · simpa using List.all_eq_true.mp List.all_takeWhile c hc
      · have hhead := List.head?_dropWhile_not (fun c => !isBlank c) (text.dropWhile isBlank)
        rw [Option.mem_def.mp hc] at hhead
        simpa using hhead
  · rintro ⟨blanks, rest, rfl, hblanks, hne, htoken, hrest⟩
    obtain ⟨first, others, rfl⟩ := List.exists_cons_of_ne_nil hne
    have hdrop : (blanks ++ (first :: others) ++ rest).dropWhile isBlank
        = first :: others ++ rest := by
      rw [List.append_assoc, List.dropWhile_append_of_pos hblanks, List.cons_append,
        List.dropWhile_cons_of_neg (by simp [htoken first List.mem_cons_self])]
    have htake : (first :: others ++ rest).takeWhile (fun c => !isBlank c) = first :: others := by
      rw [List.takeWhile_append_of_pos (fun c hc => by simp [htoken c hc])]
      cases rest with
      | nil => simp
      | cons c rest =>
        have hc : isBlank c = true := hrest c rfl
        rw [List.takeWhile_cons_of_neg (by simp [hc]), List.append_nil]
    rw [firstToken?, hdrop, htake]

/-- A blank behind a text changes nothing about its first token. -/
theorem firstToken?_append_blank {c : Char} (hc : isBlank c = true) (text : List Char) :
    firstToken? (text ++ [c]) = firstToken? text := by
  have htake : ∀ l : List Char, (l ++ [c]).takeWhile (fun c => !isBlank c)
      = l.takeWhile fun c => !isBlank c := by
    intro l
    rw [List.takeWhile_append]
    split
    · rename_i hall
      rw [List.takeWhile_cons_of_neg (by simp [hc]), List.append_nil]
      exact ((List.takeWhile_prefix _).eq_of_length hall).symm
    · rfl
  rw [firstToken?, firstToken?, List.dropWhile_append]
  by_cases hblank : (text.dropWhile isBlank).isEmpty = true
  · rw [if_pos hblank, List.dropWhile_cons_of_pos hc, List.isEmpty_iff.mp hblank]
    rfl
  · rw [if_neg hblank, htake]

theorem isBlank_of_isDigit {c : Char} (h : c.isDigit = true) : isBlank c = false := by
  obtain ⟨hlow, hhigh⟩ := Char.isDigit_iff_toNat.mp h
  have hlow : 48 ≤ c.toNat := hlow
  have hhigh : c.toNat ≤ 57 := hhigh
  simp only [isBlank, Bool.or_eq_false_iff, Bool.and_eq_false_iff, beq_eq_false_iff_ne,
    decide_eq_false_iff_not]
  omega

/-- A token writes a number: digits, with a plus sign before them or not. -/
def Writes (token : List Char) (n : Nat) : Prop :=
  ∃ digits, (token = digits ∨ token = '+' :: digits) ∧ digits ≠ [] ∧
    (∀ c ∈ digits, c.isDigit = true) ∧ Nat.ofDigitChars 10 digits 0 = n

/-- Go on with the next digit of a number. -/
def addDigit (n : Option Nat) (c : Char) : Option Nat := do
  let n ← n
  if c.isDigit then some (n * 10 + (c.toNat - '0'.toNat)) else none

/-- A character that is no digit spoils the whole numeral. -/
theorem foldl_addDigit_none (digits : List Char) : digits.foldl addDigit none = none := by
  induction digits with
  | nil => rfl
  | cons c rest ih => exact ih

/-- One character that is no digit spoils all of them. -/
theorem foldl_addDigit (digits : List Char) (n : Nat) :
    digits.foldl addDigit (some n)
      = if digits.all Char.isDigit then some (Nat.ofDigitChars 10 digits n) else none := by
  induction digits generalizing n with
  | nil => simp
  | cons c rest ih =>
    rw [List.foldl_cons]
    by_cases hc : c.isDigit = true
    · have hstep : addDigit (some n) c = some (10 * n + (c.toNat - '0'.toNat)) := by
        simp [addDigit, hc, Nat.mul_comm]
      rw [hstep, ih]
      simp [hc, Nat.ofDigitChars_cons]
    · have hstep : addDigit (some n) c = none := by
        simp [addDigit, hc]
      rw [hstep, foldl_addDigit_none]
      simp [hc]

/-- Digits have a value if there is one at all and they are nothing but digits. -/
theorem digitsValue?_eq_some_iff {digits : List Char} {n : Nat} :
    digitsValue? digits = some n ↔
      digits ≠ [] ∧ (∀ c ∈ digits, c.isDigit = true) ∧ Nat.ofDigitChars 10 digits 0 = n := by
  cases digits with
  | nil => simp [digitsValue?]
  | cons c rest =>
    have hfold : digitsValue? (c :: rest) = (c :: rest).foldl addDigit (some 0) := rfl
    rw [hfold, foldl_addDigit, Option.ite_none_right_eq_some, Option.some_inj]
    simp

/-- A value fits if it is that of a 64-bit number. -/
theorem fit64?_eq_some_iff {n : Nat} {v : UInt64} : fit64? n = some v ↔ n = v.toNat := by
  rw [fit64?, Option.ite_none_right_eq_some, Option.some_inj]
  constructor
  · rintro ⟨hlt, rfl⟩
    exact (UInt64.toNat_ofNat_of_lt hlt).symm
  · rintro rfl
    exact ⟨v.toNat_lt, UInt64.ofNat_toNat⟩

theorem bind_fit64?_eq_some_iff {digits : List Char} {v : UInt64} :
    (digitsValue? digits).bind fit64? = some v ↔
      digits ≠ [] ∧ (∀ c ∈ digits, c.isDigit = true) ∧ Nat.ofDigitChars 10 digits 0 = v.toNat := by
  simp only [Option.bind_eq_some_iff, fit64?_eq_some_iff, digitsValue?_eq_some_iff]
  constructor
  · rintro ⟨n, ⟨hne, hdigits, rfl⟩, hn⟩
    exact ⟨hne, hdigits, hn⟩
  · rintro ⟨hne, hdigits, hn⟩
    exact ⟨_, ⟨hne, hdigits, hn⟩, rfl⟩

/-- A token is read as the number that it writes, with or without a sign in front. -/
theorem numeral?_eq_some_iff {token : List Char} {v : UInt64} :
    numeral? token = some v ↔ Writes token v.toNat := by
  fun_cases numeral? token with
  | case1 digits =>
    rw [bind_fit64?_eq_some_iff]
    constructor
    · exact fun h => ⟨digits, .inr rfl, h⟩
    · rintro ⟨digits', heq | heq, h⟩
      · -- a plus sign is no digit
        have hplus := h.2.1 '+' (heq ▸ List.mem_cons_self)
        exact absurd hplus (by decide)
      · rw [(List.cons.inj heq).2]
        exact h
  | case2 _ hplus =>
    rw [bind_fit64?_eq_some_iff]
    constructor
    · exact fun h => ⟨token, .inl rfl, h⟩
    · rintro ⟨digits, rfl | rfl, h⟩
      · exact h
      · exact absurd rfl (hplus digits)

/-- A number is written by its digits. -/
theorem writes_toDigits (n : Nat) : Writes (Nat.toDigits 10 n) n := by
  refine ⟨_, .inl rfl, ?_, fun c hc => ?_, Nat.ofDigitChars_ten_toDigits⟩
  · exact List.ne_nil_of_length_pos Nat.length_toDigits_pos
  · exact Nat.isDigit_of_mem_toDigits (by decide) (by decide) hc

end Text

/-! ## Lines -/

namespace Status

/-- A line without the carriage return at its end. -/
def chomp (line : List Char) : List Char :=
  if line.getLast? = some '\r' then line.dropLast else line

/-- Only a carriage return at the very end is taken off. -/
theorem chomp_cons {c : Char} {line : List Char} (h : line ≠ [] ∨ c ≠ '\r') :
    chomp (c :: line) = c :: chomp line := by
  cases line with
  | nil =>
    have hc : c ≠ '\r' := h.resolve_left fun hne => hne rfl
    simp [chomp, hc]
  | cons d rest =>
    rw [chomp, chomp, List.getLast?_cons_cons]
    split <;> rfl

/-- What stands between the line feeds of a text. -/
def pieces (text : List Char) : List (List Char) := text.splitOn '\n'

/-- A line feed closes the piece in front of it. -/
theorem pieces_feed (text : List Char) : pieces ('\n' :: text) = [] :: pieces text := by
  rw [pieces, List.splitOn_cons_eq_if_modifyHead, if_pos (by decide), pieces]

theorem pieces_cons {c : Char} (hc : c ≠ '\n') {text first : List Char}
    {others : List (List Char)} (h : pieces text = first :: others) :
    pieces (c :: text) = (c :: first) :: others := by
  rw [pieces] at h
  rw [pieces, List.splitOn_cons_eq_if_modifyHead, if_neg (by simpa using hc), h,
    List.modifyHead_cons]

theorem exists_pieces (text : List Char) : ∃ first others, pieces text = first :: others :=
  List.exists_cons_of_ne_nil (List.splitOn_ne_nil '\n' text)

/-- Only a line feed ends a piece that is empty. -/
theorem head?_of_pieces {text next : List Char} {others : List (List Char)}
    (h : pieces text = [] :: next :: others) : text.head? = some '\n' := by
  cases text with
  | nil => cases h
  | cons c rest =>
    by_cases hc : c = '\n'
    · rw [hc, List.head?_cons]
    · obtain ⟨first, others', hrest⟩ := exists_pieces rest
      rw [pieces_cons hc hrest] at h
      cases h

/-- The lines that pieces are. What stands behind the last line feed is a line as it is, unless it
is empty. -/
def linesOf : List (List Char) → List (List Char)
  | [] => []
  | [last] => if last = [] then [] else [last]
  | piece :: next :: rest => chomp piece :: linesOf (next :: rest)

/-- A character becomes the first one of its line, unless it is a carriage return right before the
line feed. -/
theorem linesOf_cons {c : Char} {first : List Char} {others : List (List Char)}
    (h : first = [] → others ≠ [] → c ≠ '\r') :
    linesOf ((c :: first) :: others)
      = match linesOf (first :: others) with
        | [] => [[c]]
        | line :: rest => (c :: line) :: rest := by
  cases others with
  | nil =>
    by_cases hfirst : first = []
    · simp [linesOf, hfirst]
    · simp [linesOf, hfirst]
  | cons next rest =>
    have hchomp : first ≠ [] ∨ c ≠ '\r' := by
      by_cases hfirst : first = []
      · exact .inr (h hfirst (List.cons_ne_nil next rest))
      · exact .inl hfirst
    rw [linesOf, chomp_cons hchomp, linesOf]

/-- The lines of a text are those of its pieces. -/
theorem lines_eq (text : List Char) : lines text = linesOf (pieces text) := by
  have hcons : ∀ {c : Char} {rest : List Char}, (c = '\n' → False) →
      (∀ rest', c = '\r' → rest = '\n' :: rest' → False) →
      linesOf (pieces (c :: rest))
        = match linesOf (pieces rest) with
          | [] => [[c]]
          | line :: others => (c :: line) :: others := by
    intro c rest hc hreturn
    obtain ⟨first, others, hrest⟩ := exists_pieces rest
    rw [pieces_cons hc hrest, hrest]
    refine linesOf_cons fun hfirst hothers hcr => ?_
    obtain ⟨next, more, rfl⟩ := List.exists_cons_of_ne_nil hothers
    rw [hfirst] at hrest
    obtain ⟨rest', hrest'⟩ := List.head?_eq_some_iff.mp (head?_of_pieces hrest)
    exact hreturn rest' hcr hrest'
  fun_induction lines text with
  | case1 => rfl
  | case2 rest ih =>
    obtain ⟨first, others, hrest⟩ := exists_pieces rest
    rw [ih, pieces_feed, hrest]
    rfl
  | case3 rest ih =>
    obtain ⟨first, others, hrest⟩ := exists_pieces rest
    rw [ih, pieces_cons (by decide) (pieces_feed rest), hrest]
    rfl
  | case4 c rest hfeed hreturn hnone ih => rw [hcons hfeed hreturn, ← ih, hnone]
  | case5 c rest hfeed hreturn line others hsome ih => rw [hcons hfeed hreturn, ← ih, hsome]

/-! ## What a line gives -/

/-- A line gives a number for a field. -/
def Gives (field line : List Char) (v : UInt64) : Prop :=
  ':' ∉ field ∧ ∃ value token, line = field ++ ':' :: value ∧ Text.StartsWith token value ∧
    Text.Writes token v.toNat

section Names

variable {field : List Char} (h : ':' ∉ field) (value : List Char)

include h

theorem forall_bne_colon : ∀ c ∈ field, (c != ':') = true := by
  intro c hc
  rw [bne_iff_ne]
  rintro rfl
  exact h hc

theorem takeWhile_name : (field ++ ':' :: value).takeWhile (· != ':') = field := by
  rw [List.takeWhile_append_of_pos (forall_bne_colon h), List.takeWhile_cons_of_neg (by decide),
    List.append_nil]

theorem dropWhile_name : (field ++ ':' :: value).dropWhile (· != ':') = ':' :: value := by
  rw [List.dropWhile_append_of_pos (forall_bne_colon h), List.dropWhile_cons_of_neg (by decide)]

end Names

/-- A line is taken apart at its first colon, so a name that holds one is never found. -/
theorem valueOf?_eq_some_iff {field line value : List Char} :
    valueOf? field line = some value ↔ ':' ∉ field ∧ line = field ++ ':' :: value := by
  constructor
  · intro h
    rw [valueOf?] at h
    split at h
    · rename_i value' hdrop
      obtain ⟨rfl, hvalue⟩ := Option.ite_none_right_eq_some.mp h
      obtain rfl := Option.some.inj hvalue
      have hline := List.takeWhile_append_dropWhile (p := (· != ':')) (l := line)
      rw [hdrop] at hline
      refine ⟨fun hmem => ?_, hline.symm⟩
      have hcolon := List.all_eq_true.mp List.all_takeWhile ':' hmem
      simp at hcolon
    · cases h
  · rintro ⟨hfield, rfl⟩
    rw [valueOf?, dropWhile_name hfield, takeWhile_name hfield]
    exact if_pos rfl

/-- A line is read as a number exactly if it gives one. -/
theorem lineNumber?_eq_some_iff {field line : List Char} {v : UInt64} :
    lineNumber? field line = some v ↔ Gives field line v := by
  simp only [lineNumber?, Option.bind_eq_bind, Option.bind_eq_some_iff, valueOf?_eq_some_iff,
    Text.firstToken?_eq_some_iff, Text.numeral?_eq_some_iff, Gives]
  constructor
  · rintro ⟨value, ⟨hfield, hline⟩, token, htoken, hv⟩
    exact ⟨hfield, value, token, hline, htoken, hv⟩
  · rintro ⟨hfield, value, token, hline, htoken, hv⟩
    exact ⟨value, ⟨hfield, hline⟩, token, htoken, hv⟩

theorem lineNumber?_eq_none_iff {field line : List Char} :
    lineNumber? field line = none ↔ ∀ v, ¬ Gives field line v := by
  simp only [Option.eq_none_iff_forall_ne_some, ne_eq, lineNumber?_eq_some_iff]

/-- A carriage return at the end of a line is a blank behind its value. -/
theorem valueOf?_append_return (field line : List Char) :
    valueOf? field (line ++ ['\r']) = (valueOf? field line).map (· ++ ['\r']) := by
  refine Option.ext fun value => ?_
  rw [Option.map_eq_some_iff]
  simp only [valueOf?_eq_some_iff]
  constructor
  · rintro ⟨hfield, hline⟩
    rcases List.eq_nil_or_concat value with rfl | ⟨value, c, rfl⟩
    · obtain ⟨-, heq⟩ := List.append_inj' hline rfl
      exact absurd heq (by decide)
    · rw [List.concat_eq_append] at hline ⊢
      rw [← List.cons_append, ← List.append_assoc] at hline
      obtain ⟨rfl, hc⟩ := List.append_inj' hline rfl
      exact ⟨value, ⟨hfield, rfl⟩, by rw [hc]⟩
  · rintro ⟨value, ⟨hfield, rfl⟩, rfl⟩
    exact ⟨hfield, by rw [List.append_assoc, List.cons_append]⟩

/-- A carriage return is a blank, so it makes no difference whether it was taken off. -/
theorem lineNumber?_chomp (field line : List Char) :
    lineNumber? field (chomp line) = lineNumber? field line := by
  rw [chomp]
  split
  · rename_i hlast
    obtain ⟨start, rfl⟩ := List.getLast?_eq_some_iff.mp hlast
    rw [List.dropLast_concat, lineNumber?, lineNumber?, valueOf?_append_return]
    cases valueOf? field start with
    | none => rfl
    | some value =>
      have htoken := Text.firstToken?_append_blank (c := '\r') (by decide) value
      simp only [Option.map_some, Option.bind_eq_bind, Option.bind_some, htoken]
  · rfl

/-! ## What is found -/

/-- An empty last piece gives no number, so it does not matter whether it is a line. -/
theorem findSome?_linesOf (field : List Char) (ps : List (List Char)) :
    (linesOf ps).findSome? (lineNumber? field)
      = (ps.map chomp).findSome? (lineNumber? field) := by
  fun_induction linesOf ps with
  | case1 => rfl
  | case2 => rfl
  | case3 last hlast => simp [lineNumber?_chomp]
  | case4 piece next rest ih => rw [List.findSome?_cons, List.map_cons, List.findSome?_cons, ih]

/-- What is found is what the first of the lines gives that give anything. -/
theorem find?_eq (status field : String) :
    find? status field
      = ((pieces status.toList).map chomp).findSome? (lineNumber? field.toList) := by
  rw [find?, lines_eq, findSome?_linesOf]

/-- What is found is given by the first line that gives anything under the name. -/
theorem find?_eq_some_iff {status field : String} {v : UInt64} :
    find? status field = some v ↔
      ∃ before line after, (pieces status.toList).map chomp = before ++ line :: after ∧
        Gives field.toList line v ∧ ∀ other ∈ before, ∀ w, ¬ Gives field.toList other w := by
  simp only [find?_eq, List.findSome?_eq_some_iff, lineNumber?_eq_some_iff,
    lineNumber?_eq_none_iff]

/-- A line that gives nothing is passed over. -/
theorem find?_append_line {field line : String} (hline : '\n' ∉ line.toList)
    (h : ∀ v, ¬ Gives field.toList (chomp line.toList) v) (status : String) :
    find? (line ++ "\n" ++ status) field = find? status field := by
  have hpieces : pieces (line ++ "\n" ++ status).toList = line.toList :: pieces status.toList := by
    rw [String.toList_append, String.toList_append, List.append_assoc]
    exact List.splitOn_append_cons_self_of_not_mem hline status.toList
  rw [find?_eq, find?_eq, hpieces, List.map_cons, List.findSome?_cons,
    lineNumber?_eq_none_iff.mpr h]

/-! ## Tables -/

/-- A name that neither breaks a line nor ends before it should. -/
def Plain (name : String) : Prop := ':' ∉ name.toList ∧ '\n' ∉ name.toList

/-- What is written for a field, up to the line feed. -/
def row (entry : String × UInt64) : List Char :=
  entry.1.toList ++ ':' :: '\t' :: (Nat.toDigits 10 entry.2.toNat ++ [' ', 'k', 'B'])

theorem toList_render (fields : List (String × UInt64)) :
    (render fields).toList = Text.framed '\n' (fields.map row) := by
  rw [render, String.toList_join, List.flatMap_map, Text.framed, List.flatMap_map]
  refine congrArg (List.flatMap · fields) (funext fun entry => ?_)
  simp [row, Nat.toString_eq_repr, Nat.toList_repr]

theorem feed_not_mem_row {entry : String × UInt64} (h : Plain entry.1) : '\n' ∉ row entry := by
  intro hmem
  simp only [row, List.mem_append, List.mem_cons] at hmem
  rcases hmem with hname | hcolon | htab | hdigit | hunit
  · exact h.2 hname
  · exact absurd hcolon (by decide)
  · exact absurd htab (by decide)
  · have hdigit := Nat.isDigit_of_mem_toDigits (by decide) (by decide) hdigit
    exact absurd hdigit (by decide)
  · exact absurd hunit (by decide)

/-- A rendered table has a line for every row, and an empty piece behind the last feed. -/
theorem pieces_render {fields : List (String × UInt64)} (h : ∀ entry ∈ fields, Plain entry.1) :
    pieces (render fields).toList = fields.map row ++ [[]] := by
  rw [toList_render, pieces]
  exact Text.splitOn_framed (List.forall_mem_map.mpr fun _ hmem => feed_not_mem_row (h _ hmem))

/-- A row gives its number for its name. -/
theorem gives_row {entry : String × UInt64} (h : Plain entry.1) :
    Gives entry.1.toList (row entry) entry.2 := by
  have htab : ∀ c ∈ ['\t'], Text.isBlank c = true := List.forall_mem_singleton.mpr rfl
  have hspace : ∀ c ∈ [' ', 'k', 'B'].head?, Text.isBlank c = true := by
    rintro c ⟨⟩
    rfl
  refine ⟨h.1, _, _, rfl, ⟨['\t'], [' ', 'k', 'B'], rfl, htab, ?_, fun c hc => ?_, hspace⟩,
    Text.writes_toDigits entry.2.toNat⟩
  · exact List.ne_nil_of_length_pos Nat.length_toDigits_pos
  · exact Text.isBlank_of_isDigit (Nat.isDigit_of_mem_toDigits (by decide) (by decide) hc)

/-- It gives nothing for any other. -/
theorem lineNumber?_row {entry : String × UInt64} (h : Plain entry.1) (field : String) :
    lineNumber? field.toList (row entry) = if field == entry.1 then some entry.2 else none := by
  by_cases hfield : field = entry.1
  · rw [if_pos (by simpa using hfield), hfield, lineNumber?_eq_some_iff]
    exact gives_row h
  · rw [if_neg (by simpa using hfield), lineNumber?_eq_none_iff]
    rintro v ⟨hcolon, value, token, hline, -⟩
    have hname : field.toList = entry.1.toList := by
      rw [← takeWhile_name hcolon value, ← hline, row, takeWhile_name h.1]
    exact hfield (String.toList_inj.mp hname)

/-- Looking a field up in a rendered table is looking it up in the table. -/
theorem find?_render {fields : List (String × UInt64)} (h : ∀ entry ∈ fields, Plain entry.1)
    (field : String) : find? (render fields) field = fields.lookup field := by
  have hrows : ∀ entry ∈ fields, lineNumber? field.toList (chomp (row entry))
      = if field == entry.1 then some entry.2 else none := fun entry hmem => by
    rw [lineNumber?_chomp, lineNumber?_row (h entry hmem)]
  rw [find?_eq, pieces_render h, List.lookup_eq_findSome?]
  clear h
  induction fields with
  | nil => rfl
  | cons entry rest ih =>
    have hrest := ih fun entry hmem => hrows entry (List.mem_cons_of_mem _ hmem)
    rw [List.map_cons, List.cons_append, List.map_cons, List.findSome?_cons, List.findSome?_cons,
      hrows entry List.mem_cons_self, hrest]

/-- What is found in a status table. -/
structure Found (status field : String) : Prop where
  /-- the number of the first line that gives one for the field -/
  first : ∀ v, find? status field = some v ↔
    ∃ before line after, (pieces status.toList).map chomp = before ++ line :: after ∧
      Gives field.toList line v ∧ ∀ other ∈ before, ∀ w, ¬ Gives field.toList other w
  /-- a line that gives none hides nothing of the lines after it -/
  passed : ∀ line : String, '\n' ∉ line.toList →
    (∀ v, ¬ Gives field.toList (chomp line.toList) v) →
    find? (line ++ "\n" ++ status) field = find? status field
  /-- what was written for a field is found, unless the same name was written before -/
  written : ∀ fields : List (String × UInt64),
    (∀ entry ∈ fields, ':' ∉ entry.1.toList ∧ '\n' ∉ entry.1.toList) →
    find? (render fields) field = fields.lookup field

/-- In any text the number of any field is what the first line gives that names just this field and
has a numeral behind the colon. -/
theorem found_first (status field : String) : Found status field where
  first _ := find?_eq_some_iff
  passed _ hline h := find?_append_line hline h status
  written _ h := find?_render h field

example :
    find? "VmRSS\nVmRSSx:\t1 kB\nVmRSS: x\nVmRSS:\t  +4096 kB\r\nVmRSS: 7" "VmRSS" = some 4096 := by
  decide

end Status

end Telemetry
