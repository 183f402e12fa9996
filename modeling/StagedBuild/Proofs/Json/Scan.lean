import StagedBuild.Json.Printer
import StagedBuild.Json.Token

/-!
# Scanning what was written

The text of a value is cut into the tokens of the value, in either layout. A number literal ends
only with the character behind it, so what is said about a piece of text is said of the places
where no number can go on.

## Main definitions

* `Json.tokens`: the tokens of a value.
* `JsonScan.Delimited`: no number literal goes on with the first character.
* `JsonScan.Reads`: scanning a piece of text gives some tokens and nothing is left open.

## Main results

* `JsonScan.run_quoted`: a quoted text is scanned as that text.
* `JsonScan.reads_natural`: so is a natural number.
* `JsonScan.reads_compact`, `JsonScan.reads_pretty`: both layouts of a value have its tokens.
-/

namespace StagedBuild

namespace Json

/-- The decimal digits of a number, from the most significant one. -/
def digitsOf (n : Nat) : List Nat :=
  (Nat.toDigits 10 n).map fun c => c.toNat - '0'.toNat

def scalarToken : Json → JsonToken
  | .bool b => .bool b
  | .natural n => .number { whole := digitsOf n }
  | .string s => .string (some s)
  | _ => .null

mutual

/-- The tokens of a value. -/
def tokens : Json → List JsonToken
  | .array items => .openBracket :: (itemTokens items ++ [.closeBracket])
  | .object members => .openBrace :: (memberTokens members ++ [.closeBrace])
  | scalar => [scalarToken scalar]

def itemTokens : List Json → List JsonToken
  | [] => []
  | [item] => tokens item
  | item :: rest => tokens item ++ .comma :: itemTokens rest

def memberTokens : List (String × Json) → List JsonToken
  | [] => []
  | [(name, value)] => .string (some name) :: .colon :: tokens value
  | (name, value) :: rest =>
    .string (some name) :: .colon :: (tokens value ++ .comma :: memberTokens rest)

end

theorem digitsOf_of_lt {n : Nat} (h : n < 10) : digitsOf n = [n] := by
  rw [digitsOf, Nat.toDigits_of_lt_base h, List.map_singleton, Nat.toNat_digitChar_of_lt_ten h]
  simp

theorem digitsOf_of_le {n : Nat} (h : 10 ≤ n) : digitsOf n = digitsOf (n / 10) ++ [n % 10] := by
  have hlast : n % 10 < 10 := Nat.mod_lt n (by decide)
  rw [digitsOf, Nat.toDigits_of_base_le (by decide) h, List.map_append, List.map_singleton,
    Nat.toNat_digitChar_of_lt_ten hlast, digitsOf]
  simp

theorem ofDigits_digitsOf (n : Nat) : Numeral.ofDigits (digitsOf n) = n := by
  induction n using Nat.strongRecOn with
  | ind n ih =>
    by_cases hn : n < 10
    · simp [digitsOf_of_lt hn, Numeral.ofDigits]
    · have hfront := ih (n / 10) (by omega)
      rw [Numeral.ofDigits] at hfront
      rw [digitsOf_of_le (by omega), Numeral.ofDigits, List.foldl_append, hfront]
      simp only [List.foldl_cons, List.foldl_nil]
      omega

end Json

namespace JsonScan

theorem run_cons_of_step {scan next : JsonScan} {c : Char} {tokens : List JsonToken}
    (h : scan.step c = some (tokens, next)) (rest : List Char) :
    run scan (c :: rest) = (tokens ++ ·) <$> run next rest := by
  cases tokens with
  | nil => simp [run, h]
  | cons token tokens => simp [run, h]

-- ════════════════════════════════════════════════════════════════════════
-- Strings
-- ════════════════════════════════════════════════════════════════════════

theorem hexValue?_hexDigit : ∀ d < 16, hexValue? (Json.hexDigit d) = some d := by
  decide

/-- A character is written with a letter behind a backslash, with its code, or as it is. -/
theorem escapeChar_forms (c : Char) :
    (∃ letter, Json.escapeChar c = ['\\', letter] ∧ letter ≠ 'u' ∧ shortEscape? letter = some c) ∨
    (Json.escapeChar c = ['\\', 'u', '0', '0', Json.hexDigit (c.toNat / 16),
      Json.hexDigit (c.toNat % 16)] ∧ c.toNat < 0x20) ∨
    (Json.escapeChar c = [c] ∧ c ≠ '"' ∧ c ≠ '\\' ∧ 0x20 ≤ c.toNat) := by
  by_cases hshort : c = '"' ∨ c = '\\' ∨ c = '\n' ∨ c = '\r' ∨ c = '\t' ∨ c = '\x08' ∨ c = '\x0c'
  · left
    rcases hshort with rfl | rfl | rfl | rfl | rfl | rfl | rfl
    all_goals exact ⟨_, rfl, by decide, rfl⟩
  · right
    simp only [not_or] at hshort
    obtain ⟨hquote, hbackslash, hfeed, hreturn, htab, hback, hform⟩ := hshort
    rw [Json.escapeChar, if_neg hquote, if_neg hbackslash, if_neg hfeed, if_neg hreturn,
      if_neg htab, if_neg hback, if_neg hform]
    by_cases hcontrol : c.toNat < 0x20
    · exact .inl ⟨if_pos hcontrol, hcontrol⟩
    · exact .inr ⟨if_neg hcontrol, hquote, hbackslash, by omega⟩

/-- An escaped character is scanned as that character. -/
theorem run_escapeChar (units : List Nat) (c : Char) (rest : List Char) :
    run (.text units) (Json.escapeChar c ++ rest) = run (.text (c.toNat :: units)) rest := by
  obtain ⟨letter, hform, hletter, hshort⟩ | ⟨hform, hcontrol⟩ |
      ⟨hform, hquote, hbackslash, hplain⟩ := escapeChar_forms c
  · rw [hform]
    show run (.escape units) (letter :: rest) = _
    simp [run, step, hletter, hshort]
  · have hhigh := hexValue?_hexDigit (c.toNat / 16) (by omega)
    have hlow := hexValue?_hexDigit (c.toNat % 16) (by omega)
    have hvalue : c.toNat / 16 * 16 + c.toNat % 16 = c.toNat := by omega
    rw [hform]
    show run (.hex units 2 0)
      (Json.hexDigit (c.toNat / 16) :: Json.hexDigit (c.toNat % 16) :: rest) = _
    simp [run, step, hhigh, hlow, hvalue]
  · have hprintable : ¬ c.toNat < 0x20 := by omega
    rw [hform]
    simp [run, step, hquote, hbackslash, hprintable]

theorem run_escapeChars (units : List Nat) (cs rest : List Char) :
    run (.text units) (cs.flatMap Json.escapeChar ++ rest) =
      run (.text ((cs.map Char.toNat).reverse ++ units)) rest := by
  induction cs generalizing units with
  | nil => rfl
  | cons c cs ih =>
    rw [List.flatMap_cons, List.append_assoc, run_escapeChar, ih]
    simp

theorem not_surrogate (c : Char) :
    isHighSurrogate c.toNat = false ∧ isLowSurrogate c.toNat = false := by
  have hvalid : c.toNat < 0xD800 ∨ (0xDFFF < c.toNat ∧ c.toNat < 0x110000) := c.valid
  simp only [isHighSurrogate, isLowSurrogate, Bool.and_eq_false_iff, decide_eq_false_iff_not]
  omega

theorem joinUnits?_map_toNat (cs : List Char) : joinUnits? (cs.map Char.toNat) = some cs := by
  induction cs with
  | nil => rfl
  | cons c cs ih =>
    obtain ⟨hhigh, hlow⟩ := not_surrogate c
    cases cs with
    | nil => simp [joinUnits?, hhigh, hlow, Char.ofNat_toNat]
    | cons d ds =>
      rw [List.map_cons] at ih
      rw [List.map_cons, List.map_cons, joinUnits?, ih]
      simp [hhigh, hlow, Char.ofNat_toNat]

theorem run_quoted (s : String) (rest : List Char) :
    run .idle (Json.quoted s ++ rest) = (.string (some s) :: ·) <$> run .idle rest := by
  have hunits : joinUnits? ((s.toList.map Char.toNat).reverse ++ []).reverse = some s.toList := by
    rw [List.append_nil, List.reverse_reverse, joinUnits?_map_toNat]
  have hclose : step (.text ((s.toList.map Char.toNat).reverse ++ [])) '"' =
      some ([.string (some s)], .idle) := by
    simp only [step, if_pos, hunits, Option.map_some, String.ofList_toList]
  show run (.text []) (s.toList.flatMap Json.escapeChar ++ ['"'] ++ rest) = _
  rw [List.append_assoc, run_escapeChars, List.singleton_append, run_cons_of_step hclose]
  rfl

-- ════════════════════════════════════════════════════════════════════════
-- Pieces of text
-- ════════════════════════════════════════════════════════════════════════

/-- No number literal goes on with the first character. -/
def Delimited (cs : List Char) : Prop :=
  ∀ c ∈ cs.head?, ∀ part n, NumeralPart.extend? part n c = none

/-- Before a delimiter, scanning the characters gives the tokens and leaves nothing open. -/
def Reads (cs : List Char) (tokens : List JsonToken) : Prop :=
  ∀ rest, Delimited rest → run .idle (cs ++ rest) = (tokens ++ ·) <$> run .idle rest

theorem Delimited.nil : Delimited [] := by
  intro c hc
  cases hc

theorem Delimited.cons {c : Char} {cs : List Char} (h : c ∈ [',', ':', ']', '\x7d', '\n']) :
    Delimited (c :: cs) := by
  rintro d hd part n
  obtain rfl : c = d := by simpa using hd
  simp only [List.mem_cons, List.not_mem_nil, or_false] at h
  rcases h with rfl | rfl | rfl | rfl | rfl <;> cases part <;> rfl

theorem Delimited.append {cs ds : List Char} (hcs : Delimited cs) (hds : Delimited ds) :
    Delimited (cs ++ ds) := by
  cases cs with
  | nil => exact hds
  | cons c cs => exact hcs

namespace Reads

variable {cs ds : List Char} {tokens others : List JsonToken} {c : Char}

theorem nil : Reads [] [] := by
  intro rest _
  simp

theorem append (hcs : Reads cs tokens) (hds : Reads ds others) (hdelimited : Delimited ds) :
    Reads (cs ++ ds) (tokens ++ others) := by
  intro rest hrest
  rw [List.append_assoc, hcs _ (hdelimited.append hrest), hds rest hrest]
  simp [Function.comp_def]

theorem cons {token : JsonToken} (h : begin? c = some ([token], .idle)) (hcs : Reads cs tokens) :
    Reads (c :: cs) (token :: tokens) := by
  intro rest hrest
  have hstep : step .idle c = some ([token], .idle) := h
  rw [List.cons_append, run_cons_of_step hstep, hcs rest hrest]
  simp [Function.comp_def]

theorem space (h : isSpace c = true) (hcs : Reads cs tokens) : Reads (c :: cs) tokens := by
  intro rest hrest
  have hstep : step .idle c = some ([], .idle) := by simp [step, begin?, h]
  rw [List.cons_append, run_cons_of_step hstep, hcs rest hrest]
  simp

end Reads

theorem reads_quoted (s : String) : Reads (Json.quoted s) [.string (some s)] :=
  fun rest _ => run_quoted s rest

-- ════════════════════════════════════════════════════════════════════════
-- Numbers
-- ════════════════════════════════════════════════════════════════════════

theorem begin?_digitChar : ∀ d < 10, 0 < d →
    begin? (Nat.digitChar d) = some ([], .number .whole { whole := [d] }) := by
  decide

theorem digitValue?_digitChar : ∀ d < 10, digitValue? (Nat.digitChar d) = some d := by
  decide

/-- The digits of a positive number are collected as they are written. -/
theorem run_toDigits {n : Nat} (hpos : 0 < n) (rest : List Char) :
    run .idle (Nat.toDigits 10 n ++ rest) =
      run (.number .whole { whole := Json.digitsOf n }) rest := by
  induction n using Nat.strongRecOn generalizing rest with
  | ind n ih =>
    by_cases hn : n < 10
    · have hstep : step .idle (Nat.digitChar n) = _ := begin?_digitChar n hn hpos
      rw [Nat.toDigits_of_lt_base hn, List.singleton_append, run_cons_of_step hstep,
        Json.digitsOf_of_lt hn]
      simp
    · have hdigit := digitValue?_digitChar (n % 10) (Nat.mod_lt n (by decide))
      have hstep : step (.number .whole { whole := Json.digitsOf (n / 10) })
          (Nat.digitChar (n % 10)) =
          some ([], .number .whole { whole := Json.digitsOf n }) := by
        simp [step, NumeralPart.extend?, hdigit, Json.digitsOf_of_le (Nat.le_of_not_lt hn)]
      rw [Nat.toDigits_of_base_le (by decide) (Nat.le_of_not_lt hn), List.append_assoc,
        ih (n / 10) (by omega) (by omega), List.singleton_append, run_cons_of_step hstep]
      simp

/-- A delimiter ends a number literal. -/
theorem run_number_of_delimited (part : NumeralPart) (hpart : part.isComplete = true) (n : Numeral)
    {rest : List Char} (hrest : Delimited rest) :
    run (.number part n) rest = (.number n :: ·) <$> run .idle rest := by
  cases rest with
  | nil => simp [run, finish, hpart]
  | cons c rest =>
    have hextend := hrest c rfl part n
    cases hbegin : begin? c with
    | none => simp [run, step, hextend, hpart, hbegin]
    | some next =>
      obtain ⟨tokens, scan⟩ := next
      have hnumber : step (.number part n) c = some (.number n :: tokens, scan) := by
        simp [step, hextend, hpart, hbegin]
      have hidle : step .idle c = some (tokens, scan) := hbegin
      rw [run_cons_of_step hnumber, run_cons_of_step hidle]
      simp [Function.comp_def]

theorem reads_natural (n : Nat) :
    Reads (Nat.toDigits 10 n) [.number { whole := Json.digitsOf n }] := by
  intro rest hrest
  by_cases hn : n = 0
  · subst hn
    exact run_number_of_delimited .zero rfl { whole := [0] } hrest
  · rw [run_toDigits (Nat.pos_of_ne_zero hn), run_number_of_delimited .whole rfl _ hrest]
    rfl

theorem reads_scalar (json : Json) : Reads (Json.scalarChars json) [Json.scalarToken json] := by
  cases json with
  | bool b => cases b <;> exact fun rest _ => rfl
  | natural n => exact reads_natural n
  | string s => exact reads_quoted s
  | _ => exact fun rest _ => rfl

-- ════════════════════════════════════════════════════════════════════════
-- Layouts
-- ════════════════════════════════════════════════════════════════════════

namespace Reads

variable {cs ds : List Char} {tokens others : List JsonToken}

theorem close {c : Char} {token : JsonToken} (hcs : Reads cs tokens)
    (hc : c ∈ [',', ':', ']', '\x7d', '\n']) (hbegin : begin? c = some ([token], .idle)) :
    Reads (cs ++ [c]) (tokens ++ [token]) :=
  hcs.append (nil.cons hbegin) (.cons hc)

theorem comma (hcs : Reads cs tokens) (hds : Reads ds others) :
    Reads (cs ++ ',' :: ds) (tokens ++ .comma :: others) :=
  hcs.append (hds.cons rfl) (.cons (by decide))

theorem member (hcs : Reads cs tokens) (name : String) :
    Reads (Json.quoted name ++ ':' :: cs) (.string (some name) :: .colon :: tokens) :=
  (reads_quoted name).append (hcs.cons rfl) (.cons (by decide))

theorem newline (hcs : Reads cs tokens) (level : Nat) :
    Reads (Json.newline level ++ cs) tokens := by
  have hspaces : ∀ width, Reads (List.replicate width ' ' ++ cs) tokens := by
    intro width
    induction width with
    | zero => exact hcs
    | succ width ih => exact ih.space rfl
  exact (hspaces (2 * level)).space rfl

/-- The line of a closing bracket or brace. -/
theorem closeLine {c : Char} {token : JsonToken} (hcs : Reads cs tokens) (level : Nat)
    (hbegin : begin? c = some ([token], .idle)) :
    Reads (cs ++ Json.newline level ++ [c]) (tokens ++ [token]) := by
  rw [List.append_assoc]
  exact hcs.append ((nil.cons hbegin).newline level) (.cons (by decide))

end Reads

mutual

theorem reads_compact : ∀ json : Json, Reads (Json.compactChars json) json.tokens
  | .array items => ((reads_compactItems items).close (by decide) rfl).cons rfl
  | .object members => ((reads_compactMembers members).close (by decide) rfl).cons rfl
  | .null => reads_scalar .null
  | .bool b => reads_scalar (.bool b)
  | .natural n => reads_scalar (.natural n)
  | .otherNumber => reads_scalar .otherNumber
  | .string s => reads_scalar (.string s)
  | .unreadable => reads_scalar .unreadable

theorem reads_compactItems : ∀ items : List Json,
    Reads (Json.compactItems items) (Json.itemTokens items)
  | [] => .nil
  | [item] => reads_compact item
  | item :: next :: rest => (reads_compact item).comma (reads_compactItems (next :: rest))

theorem reads_compactMembers : ∀ members : List (String × Json),
    Reads (Json.compactMembers members) (Json.memberTokens members)
  | [] => .nil
  | [(name, value)] => (reads_compact value).member name
  | (name, value) :: next :: rest =>
    ((reads_compact value).comma (reads_compactMembers (next :: rest))).member name

end

mutual

theorem reads_pretty : ∀ (json : Json) (level : Nat),
    Reads (Json.prettyChars level json) json.tokens
  | .array [], _ => (Reads.nil.cons rfl).cons rfl
  | .array (item :: rest), level =>
    ((reads_prettyItems (item :: rest) (level + 1)).closeLine level rfl).cons rfl
  | .object [], _ => (Reads.nil.cons rfl).cons rfl
  | .object (member :: rest), level =>
    ((reads_prettyMembers (member :: rest) (level + 1)).closeLine level rfl).cons rfl
  | .null, _ => reads_scalar .null
  | .bool b, _ => reads_scalar (.bool b)
  | .natural n, _ => reads_scalar (.natural n)
  | .otherNumber, _ => reads_scalar .otherNumber
  | .string s, _ => reads_scalar (.string s)
  | .unreadable, _ => reads_scalar .unreadable

theorem reads_prettyItems : ∀ (items : List Json) (level : Nat),
    Reads (Json.prettyItems level items) (Json.itemTokens items)
  | [], _ => .nil
  | [item], level => (reads_pretty item level).newline level
  | item :: next :: rest, level =>
    ((reads_pretty item level).newline level).comma (reads_prettyItems (next :: rest) level)

theorem reads_prettyMembers : ∀ (members : List (String × Json)) (level : Nat),
    Reads (Json.prettyMembers level members) (Json.memberTokens members)
  | [], _ => .nil
  | [(name, value)], level => by
    rw [Json.prettyMembers, List.append_assoc]
    exact (((reads_pretty value level).space rfl).member name).newline level
  | (name, value) :: next :: rest, level => by
    have hvalue := (reads_pretty value level).comma (reads_prettyMembers (next :: rest) level)
    rw [Json.prettyMembers, List.append_assoc]
    · exact ((hvalue.space rfl).member name).newline level
    · simp

end

end JsonScan

theorem scanJson_ofList {cs : List Char} {tokens : List JsonToken} (h : JsonScan.Reads cs tokens) :
    scanJson (String.ofList cs) = some tokens := by
  have hrun := h [] .nil
  rw [List.append_nil] at hrun
  rw [scanJson, String.toList_ofList, hrun]
  simp [JsonScan.run, JsonScan.finish]

theorem scanJson_compact (json : Json) : scanJson json.compact = some json.tokens :=
  scanJson_ofList (JsonScan.reads_compact json)

theorem scanJson_pretty (json : Json) : scanJson json.pretty = some json.tokens :=
  scanJson_ofList (JsonScan.reads_pretty json 0)

end StagedBuild
