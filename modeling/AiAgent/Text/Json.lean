import AiAgent.Text.Strip
import Mathlib.Tactic.Common

/-!
# JSON

The values of JSON, how they are printed and how they are read. The printer is the usual one: items
are separated by a comma and a blank, a key by a colon and a blank, and a string is escaped where it
must be, or wherever it is not ASCII. The reader takes any JSON text, with blanks between the tokens
and every escape.

What is printed is read back as the same value (`AiAgent.Json.parse_dumps`), and it is a single line
(`AiAgent.Json.newline_notMem_dumps`). A number is kept as it is written. A surrogate that is not
part of a pair is no text, and is not read.
-/

namespace AiAgent

/-! ### Values -/

namespace Json

/-- The characters a number is written with. -/
def isNumberChar (c : Char) : Bool :=
  c.isDigit || c = '-' || c = '+' || c = '.' || c = 'e' || c = 'E'

/-- One digit or more, and what follows. -/
def digits : Text → Option Text
  | c :: t => if c.isDigit then some (t.dropWhile Char.isDigit) else none
  | [] => none

/-- The digits before the point: no zero leads others. -/
def integerPart : Text → Option Text
  | '0' :: t => some t
  | t => digits t

/-- The point and the digits after it. -/
def fraction : Text → Option Text
  | '.' :: t => digits t
  | t => some t

/-- The exponent. -/
def exponent : Text → Option Text
  | [] => some []
  | c :: t =>
    if c = 'e' ∨ c = 'E' then
      match t with
      | '+' :: t => digits t
      | '-' :: t => digits t
      | t => digits t
    else some (c :: t)

/-- The text without its sign. -/
def unsigned : Text → Text
  | '-' :: t => t
  | t => t

/-- The text is a number. -/
def isNumber (t : Text) : Bool :=
  t.all isNumberChar &&
    decide (((integerPart (unsigned t)).bind fun t => (fraction t).bind exponent) = some [])

/-- A number as it is written. -/
structure Number where
  /-- The text. -/
  literal : Text
  /-- It is a number. -/
  valid : isNumber literal = true

end Json

/-- A value. -/
inductive Json where
  | null
  | bool (b : Bool)
  | num (n : Json.Number)
  | str (s : Text)
  | arr (items : List Json)
  | obj (members : List (Text × Json))

namespace Json

/-! ### Natural numbers -/

/-- The digits of a number but zero begin with one that is not zero. -/
theorem toDigits_eq_cons {n : ℕ} (h : 0 < n) : ∃ c t, Nat.toDigits 10 n = c :: t ∧ c ≠ '0' := by
  induction n using Nat.strongRecOn with
  | ind n ih =>
    by_cases hsmall : n < 10
    · refine ⟨n.digitChar, [], Nat.toDigits_of_lt_base hsmall, ?_⟩
      have hdigits : ∀ k < 10, 0 < k → k.digitChar ≠ '0' := by decide
      exact hdigits n hsmall h
    · obtain ⟨c, t, htail, hc⟩ := ih (n / 10) (by omega) (by omega)
      exact ⟨c, t ++ [(n % 10).digitChar], by
        rw [Nat.toDigits_of_base_le (by omega) (by omega), htail, List.cons_append], hc⟩

theorem isNumber_toDigits (n : ℕ) : isNumber (Nat.toDigits 10 n) = true := by
  have hdigit : ∀ c ∈ Nat.toDigits 10 n, c.isDigit = true := fun c hc =>
    Nat.isDigit_of_mem_toDigits (by omega) le_rfl hc
  have hdash : ∀ c ∈ Nat.toDigits 10 n, c ≠ '-' := by
    rintro c hc rfl
    exact absurd (hdigit _ hc) (by decide)
  have hchars : (Nat.toDigits 10 n).all isNumberChar = true := by
    refine List.all_eq_true.mpr fun c hc => ?_
    rw [isNumberChar, hdigit c hc]
    rfl
  have hinteger : integerPart (Nat.toDigits 10 n) = some [] := by
    rcases Nat.eq_zero_or_pos n with rfl | hpos
    · rfl
    · obtain ⟨c, t, heq, hc⟩ := toDigits_eq_cons hpos
      rw [heq] at hdigit ⊢
      have hdrop : t.dropWhile Char.isDigit = [] :=
        List.dropWhile_eq_nil_iff.mpr fun d hd => hdigit d (List.mem_cons_of_mem _ hd)
      rw [integerPart, digits, if_pos (hdigit c List.mem_cons_self), hdrop]
      exact fun t' heq' => hc (List.cons.inj heq').1
  have hunsigned : unsigned (Nat.toDigits 10 n) = Nat.toDigits 10 n := by
    rcases htail : Nat.toDigits 10 n with _ | ⟨c, t⟩
    · rfl
    · rw [unsigned]
      exact fun t' heq' => hdash c (htail ▸ List.mem_cons_self) (List.cons.inj heq').1
  rw [isNumber, hchars, hunsigned, hinteger]
  rfl

/-- A natural number. -/
def Number.ofNat (n : ℕ) : Number := ⟨Nat.toDigits 10 n, isNumber_toDigits n⟩

/-! ### Printing -/

/-- A hexadecimal digit. -/
def hexDigit (n : ℕ) : Char := if n < 10 then Char.ofNat (48 + n) else Char.ofNat (87 + n)

/-- The four digits of a number below 65536. -/
def hexDigits (n : ℕ) : Text :=
  [hexDigit (n / 4096 % 16), hexDigit (n / 256 % 16), hexDigit (n / 16 % 16), hexDigit (n % 16)]

/-- `\uXXXX`. -/
def unicodeEscape (n : ℕ) : Text := '\\' :: 'u' :: hexDigits n

/-- A character in a string. -/
def escapeChar (ensureAscii : Bool) (c : Char) : Text :=
  if c = '"' then ['\\', '"']
  else if c = '\\' then ['\\', '\\']
  else if c = '\n' then ['\\', 'n']
  else if c = '\r' then ['\\', 'r']
  else if c = '\t' then ['\\', 't']
  else if c = '\x08' then ['\\', 'b']
  else if c = '\x0c' then ['\\', 'f']
  else if c.toNat < 0x20 then unicodeEscape c.toNat
  else if ensureAscii = true ∧ 0x7f ≤ c.toNat then
    if c.toNat < 0x10000 then unicodeEscape c.toNat
    else
      -- A character above the first plane is written as a pair of surrogates.
      unicodeEscape (0xd800 + (c.toNat - 0x10000) / 0x400) ++
        unicodeEscape (0xdc00 + (c.toNat - 0x10000) % 0x400)
  else [c]

/-- A string. -/
def dumpsString (ensureAscii : Bool) (s : Text) : Text :=
  '"' :: (s.flatMap (escapeChar ensureAscii) ++ ['"'])

mutual

/-- `json.dumps`. -/
def dumps (ensureAscii : Bool) : Json → Text
  | null => "null".toList
  | bool b => if b then "true".toList else "false".toList
  | num n => n.literal
  | str s => dumpsString ensureAscii s
  | arr items => '[' :: (dumpsItems ensureAscii items ++ [']'])
  | obj members => '{' :: (dumpsMembers ensureAscii members ++ ['}'])
termination_by structural v => v

/-- The items of an array. -/
def dumpsItems (ensureAscii : Bool) : List Json → Text
  | [] => []
  | [v] => dumps ensureAscii v
  | v :: vs => dumps ensureAscii v ++ ',' :: ' ' :: dumpsItems ensureAscii vs
termination_by structural vs => vs

/-- The members of an object. -/
def dumpsMembers (ensureAscii : Bool) : List (Text × Json) → Text
  | [] => []
  | [(k, v)] => dumpsString ensureAscii k ++ ':' :: ' ' :: dumps ensureAscii v
  | (k, v) :: ms => dumpsString ensureAscii k ++ ':' :: ' ' :: (dumps ensureAscii v ++
      ',' :: ' ' :: dumpsMembers ensureAscii ms)
termination_by structural ms => ms

end

/-! ### Reading -/

/-- The blanks between tokens. -/
def isBlank (c : Char) : Bool := c = ' ' || c = '\t' || c = '\n' || c = '\r'

/-- The text after its blanks. -/
def skipBlanks (t : Text) : Text := t.dropWhile isBlank

/-- The value of a hexadecimal digit. -/
def hexValue (c : Char) : Option ℕ :=
  if 48 ≤ c.toNat ∧ c.toNat ≤ 57 then some (c.toNat - 48)
  else if 97 ≤ c.toNat ∧ c.toNat ≤ 102 then some (c.toNat - 87)
  else if 65 ≤ c.toNat ∧ c.toNat ≤ 70 then some (c.toNat - 55)
  else none

/-- Four hexadecimal digits. -/
def hex4 : Text → Option (ℕ × Text)
  | a :: b :: c :: d :: t => do
    let a ← hexValue a
    let b ← hexValue b
    let c ← hexValue c
    let d ← hexValue d
    return (a * 4096 + b * 256 + c * 16 + d, t)
  | _ => none

/-- The second surrogate of a pair, and the character that the pair stands for. -/
def parseLow (high : ℕ) : Text → Option (Char × Text)
  | '\\' :: 'u' :: t => do
    let (low, t) ← hex4 t
    if 0xdc00 ≤ low ∧ low < 0xe000 then
      return (Char.ofNat (0x10000 + (high - 0xd800) * 0x400 + (low - 0xdc00)), t)
    else none
  | _ => none

/-- What follows `\u`; a surrogate needs its pair. -/
def parseUnicode (t : Text) : Option (Char × Text) := do
  let (n, t) ← hex4 t
  if 0xd800 ≤ n ∧ n < 0xdc00 then parseLow n t
  else if 0xdc00 ≤ n ∧ n < 0xe000 then none
  else return (Char.ofNat n, t)

/-- What a character after a backslash stands for. -/
def simpleEscape (c : Char) : Option Char :=
  if c = '"' ∨ c = '\\' ∨ c = '/' then some c
  else if c = 'n' then some '\n'
  else if c = 'r' then some '\r'
  else if c = 't' then some '\t'
  else if c = 'b' then some '\x08'
  else if c = 'f' then some '\x0c'
  else none

/-- One character of a string. -/
def parseChar : Text → Option (Char × Text)
  | [] => none
  | c :: t =>
    if c = '\\' then
      match t with
      | [] => none
      | e :: t => if e = 'u' then parseUnicode t else (simpleEscape e).map fun c => (c, t)
    else if c.toNat < 0x20 then none
    else some (c, t)

/-- A string, after its first quote. -/
def parseString : ℕ → Text → Option (Text × Text)
  | 0, _ => none
  | _, [] => none
  | n + 1, c :: t =>
    if c = '"' then some ([], t)
    else do
      let (c, t) ← parseChar (c :: t)
      let (s, t) ← parseString n t
      return (c :: s, t)

/-- A word or a number. -/
def parseScalar (t : Text) : Option (Json × Text) :=
  if "null".toList.isPrefixOf t then some (null, t.drop 4)
  else if "true".toList.isPrefixOf t then some (bool true, t.drop 4)
  else if "false".toList.isPrefixOf t then some (bool false, t.drop 5)
  else if h : isNumber (t.takeWhile isNumberChar) = true then
    some (num ⟨t.takeWhile isNumberChar, h⟩, t.dropWhile isNumberChar)
  else none

/-- The key of a member, and its colon. -/
def parseKey : Text → Option (Text × Text)
  | [] => none
  | c :: t =>
    if c = '"' then do
      let (k, t) ← parseString (t.length + 1) t
      if (skipBlanks t).head? = some ':' then return (k, (skipBlanks t).tail) else none
    else none

mutual

/-- A value, with fuel. -/
def parseValue : ℕ → Text → Option (Json × Text)
  | 0, _ => none
  | n + 1, t =>
    match skipBlanks t with
    | [] => none
    | c :: t =>
      if c = '"' then (parseString (t.length + 1) t).map fun p => (str p.1, p.2)
      else if c = '[' then
        if (skipBlanks t).head? = some ']' then some (arr [], (skipBlanks t).tail)
        else (parseItems n t).map fun p => (arr p.1, p.2)
      else if c = '{' then
        if (skipBlanks t).head? = some '}' then some (obj [], (skipBlanks t).tail)
        else (parseMembers n t).map fun p => (obj p.1, p.2)
      else parseScalar (c :: t)

/-- The items of an array, up to its end. -/
def parseItems : ℕ → Text → Option (List Json × Text)
  | 0, _ => none
  | n + 1, t => do
    let (v, t) ← parseValue n t
    match skipBlanks t with
    | [] => none
    | c :: t =>
      if c = ',' then (parseItems n t).map fun p => (v :: p.1, p.2)
      else if c = ']' then return ([v], t)
      else none

/-- The members of an object, up to its end. -/
def parseMembers : ℕ → Text → Option (List (Text × Json) × Text)
  | 0, _ => none
  | n + 1, t => do
    let (k, t) ← parseKey (skipBlanks t)
    let (v, t) ← parseValue n t
    match skipBlanks t with
    | [] => none
    | c :: t =>
      if c = ',' then (parseMembers n t).map fun p => ((k, v) :: p.1, p.2)
      else if c = '}' then return ([(k, v)], t)
      else none

end

/-- `json.loads`, `JSON.parse`: one value and nothing else. -/
def parse (t : Text) : Option Json := do
  let (v, rest) ← parseValue (t.length + 1) t
  if skipBlanks rest = [] then return v else none

/-! ### Characters -/

section Characters

variable {ensureAscii : Bool}

theorem hexValue_hexDigit {n : ℕ} (h : n < 16) : hexValue (hexDigit n) = some n := by
  have hall : ∀ n < 16, hexValue (hexDigit n) = some n := by decide +kernel
  exact hall n h

theorem hex4_hexDigits {n : ℕ} (h : n < 0x10000) (t : Text) :
    hex4 (hexDigits n ++ t) = some (n, t) := by
  have hvalue : ∀ m, hexValue (hexDigit (m % 16)) = some (m % 16) := fun m =>
    hexValue_hexDigit (Nat.mod_lt _ (by omega))
  have hsum : n / 4096 % 16 * 4096 + n / 256 % 16 * 256 + n / 16 % 16 * 16 + n % 16 = n := by omega
  change hex4 (_ :: _ :: _ :: _ :: t) = _
  rw [hex4, hvalue, hvalue, hvalue, hvalue]
  exact congrArg (fun m => some (m, t)) hsum

theorem parseChar_backslash_u (t : Text) : parseChar ('\\' :: 'u' :: t) = parseUnicode t := rfl

theorem toNat_lt (c : Char) : c.toNat < 0xd800 ∨ 0xdfff < c.toNat ∧ c.toNat < 0x110000 := c.valid

/-- A character that is written as one escape. -/
theorem parseChar_unicodeEscape {c : Char} (h : c.toNat < 0x10000) (t : Text) :
    parseChar (unicodeEscape c.toNat ++ t) = some (c, t) := by
  have hvalid := toNat_lt c
  have hhigh : ¬(0xd800 ≤ c.toNat ∧ c.toNat < 0xdc00) := by omega
  have hlow : ¬(0xdc00 ≤ c.toNat ∧ c.toNat < 0xe000) := by omega
  rw [unicodeEscape, List.cons_append, List.cons_append, parseChar_backslash_u, parseUnicode,
    hex4_hexDigits h, Option.bind_eq_bind, Option.bind_some]
  dsimp only
  rw [if_neg hhigh, if_neg hlow, Char.ofNat_toNat]
  rfl

/-- A character that is written as a pair of surrogates. -/
theorem parseChar_surrogates {c : Char} (h : 0x10000 ≤ c.toNat) (t : Text) :
    parseChar (unicodeEscape (0xd800 + (c.toNat - 0x10000) / 0x400) ++
      (unicodeEscape (0xdc00 + (c.toNat - 0x10000) % 0x400) ++ t)) = some (c, t) := by
  have hvalid := toNat_lt c
  obtain ⟨n, hn⟩ : ∃ n, n = c.toNat - 0x10000 := ⟨_, rfl⟩
  rw [← hn]
  have hhigh : 0xd800 ≤ 0xd800 + n / 0x400 ∧ 0xd800 + n / 0x400 < 0xdc00 := by omega
  have hlow : 0xdc00 ≤ 0xdc00 + n % 0x400 ∧ 0xdc00 + n % 0x400 < 0xe000 := by omega
  have hsum : 0x10000 + (0xd800 + n / 0x400 - 0xd800) * 0x400 + (0xdc00 + n % 0x400 - 0xdc00) =
      c.toNat := by omega
  rw [unicodeEscape, unicodeEscape, List.cons_append, List.cons_append, parseChar_backslash_u,
    parseUnicode, hex4_hexDigits (by omega), Option.bind_eq_bind, Option.bind_some]
  dsimp only
  rw [if_pos hhigh, List.cons_append, List.cons_append, parseLow, hex4_hexDigits (by omega),
    Option.bind_eq_bind, Option.bind_some]
  dsimp only
  rw [if_pos hlow, hsum, Char.ofNat_toNat]
  rfl

/-- **How a character is written**: with a backslash and a letter, as one escape or a pair of
surrogates, or as it is. -/
theorem escapeChar_cases (ensureAscii : Bool) (c : Char) :
    (∃ e, escapeChar ensureAscii c = ['\\', e] ∧ e ≠ 'u' ∧ simpleEscape e = some c ∧
        0x20 ≤ e.toNat ∧ e.toNat < 0x7f) ∨
      (c.toNat < 0x10000 ∧ escapeChar ensureAscii c = unicodeEscape c.toNat) ∨
      (0x10000 ≤ c.toNat ∧ escapeChar ensureAscii c =
        unicodeEscape (0xd800 + (c.toNat - 0x10000) / 0x400) ++
          unicodeEscape (0xdc00 + (c.toNat - 0x10000) % 0x400)) ∨
      (escapeChar ensureAscii c = [c] ∧ c ≠ '"' ∧ c ≠ '\\' ∧ 0x20 ≤ c.toNat ∧
        (ensureAscii = true → c.toNat < 0x7f)) := by
  rw [escapeChar]
  by_cases hquote : c = '"'
  · rw [if_pos hquote, hquote]
    exact .inl ⟨'"', rfl, by decide, rfl, by decide, by decide⟩
  rw [if_neg hquote]
  by_cases hback : c = '\\'
  · rw [if_pos hback, hback]
    exact .inl ⟨'\\', rfl, by decide, rfl, by decide, by decide⟩
  rw [if_neg hback]
  by_cases hn : c = '\n'
  · rw [if_pos hn, hn]
    exact .inl ⟨'n', rfl, by decide, rfl, by decide, by decide⟩
  rw [if_neg hn]
  by_cases hr : c = '\r'
  · rw [if_pos hr, hr]
    exact .inl ⟨'r', rfl, by decide, rfl, by decide, by decide⟩
  rw [if_neg hr]
  by_cases ht : c = '\t'
  · rw [if_pos ht, ht]
    exact .inl ⟨'t', rfl, by decide, rfl, by decide, by decide⟩
  rw [if_neg ht]
  by_cases hb : c = '\x08'
  · rw [if_pos hb, hb]
    exact .inl ⟨'b', rfl, by decide, rfl, by decide, by decide⟩
  rw [if_neg hb]
  by_cases hf : c = '\x0c'
  · rw [if_pos hf, hf]
    exact .inl ⟨'f', rfl, by decide, rfl, by decide, by decide⟩
  rw [if_neg hf]
  by_cases hcontrol : c.toNat < 0x20
  · rw [if_pos hcontrol]
    exact .inr (.inl ⟨by omega, rfl⟩)
  rw [if_neg hcontrol]
  by_cases hascii : ensureAscii = true ∧ 0x7f ≤ c.toNat
  · rw [if_pos hascii]
    by_cases hplane : c.toNat < 0x10000
    · rw [if_pos hplane]
      exact .inr (.inl ⟨hplane, rfl⟩)
    · rw [if_neg hplane]
      exact .inr (.inr (.inl ⟨by omega, rfl⟩))
  · rw [if_neg hascii]
    refine .inr (.inr (.inr ⟨rfl, hquote, hback, by omega, fun hon => ?_⟩))
    by_contra hge
    exact hascii ⟨hon, by omega⟩

/-- **A character is read as it was written.** -/
theorem parseChar_escapeChar (ensureAscii : Bool) (c : Char) (t : Text) :
    parseChar (escapeChar ensureAscii c ++ t) = some (c, t) := by
  rcases escapeChar_cases ensureAscii c with ⟨e, hescape, hne, hsimple, -⟩ | ⟨hplane, hescape⟩ |
    ⟨hplane, hescape⟩ | ⟨hescape, -, hback, hcontrol, -⟩
  · rw [hescape, List.cons_append, List.singleton_append, parseChar.eq_def]
    dsimp only
    rw [if_pos rfl, if_neg hne, hsimple]
    rfl
  · rw [hescape]
    exact parseChar_unicodeEscape hplane t
  · rw [hescape, List.append_assoc]
    exact parseChar_surrogates hplane t
  · rw [hescape, List.singleton_append, parseChar.eq_def]
    dsimp only
    rw [if_neg hback, if_neg (by omega)]

/-- An escape is not empty and does not begin with a quote. -/
theorem escapeChar_eq_cons (ensureAscii : Bool) (c : Char) :
    ∃ d u, escapeChar ensureAscii c = d :: u ∧ d ≠ '"' := by
  rcases escapeChar_cases ensureAscii c with ⟨e, hescape, -⟩ | ⟨-, hescape⟩ | ⟨-, hescape⟩ |
    ⟨hescape, hquote, -⟩
  · exact ⟨_, _, hescape, by decide⟩
  · exact ⟨_, _, hescape, by decide⟩
  · exact ⟨_, _, hescape, by decide⟩
  · exact ⟨_, _, hescape, hquote⟩

/-- **A string is read as it was written.** -/
theorem parseString_dumpsString (s t : Text) {n : ℕ} (h : s.length < n) :
    parseString n (s.flatMap (escapeChar ensureAscii) ++ '"' :: t) = some (s, t) := by
  induction s generalizing n with
  | nil =>
    obtain ⟨m, rfl⟩ : ∃ m, n = m + 1 := ⟨n - 1, by rw [List.length_nil] at h; omega⟩
    rw [List.flatMap_nil, List.nil_append, parseString, if_pos rfl]
  | cons c s ih =>
    rw [List.length_cons] at h
    obtain ⟨m, rfl⟩ : ∃ m, n = m + 1 := ⟨n - 1, by omega⟩
    obtain ⟨d, u, hescape, hne⟩ := escapeChar_eq_cons ensureAscii c
    have hchar := parseChar_escapeChar ensureAscii c
      (s.flatMap (escapeChar ensureAscii) ++ '"' :: t)
    rw [List.flatMap_cons, List.append_assoc]
    rw [hescape, List.cons_append] at hchar ⊢
    rw [parseString, if_neg hne, hchar, Option.bind_eq_bind, Option.bind_some]
    dsimp only
    rw [ih (by omega)]
    rfl

/-- The escapes are at least as many characters as the string. -/
theorem length_le_flatMap (s : Text) : s.length ≤ (s.flatMap (escapeChar ensureAscii)).length := by
  induction s with
  | nil => exact Nat.zero_le _
  | cons c s ih =>
    obtain ⟨d, u, hescape, -⟩ := escapeChar_eq_cons ensureAscii c
    rw [List.flatMap_cons, List.length_append, hescape, List.length_cons, List.length_cons]
    omega

end Characters

/-! ### Tokens -/

section Tokens

theorem skipBlanks_cons {c : Char} (h : isBlank c = false) (t : Text) :
    skipBlanks (c :: t) = c :: t := by
  rw [skipBlanks, List.dropWhile_cons_of_neg]
  rw [h]
  exact Bool.noConfusion

theorem skipBlanks_space (t : Text) : skipBlanks (' ' :: t) = skipBlanks t := by
  rw [skipBlanks, List.dropWhile_cons_of_pos (by decide), skipBlanks]

theorem parseValue_space (n : ℕ) (t : Text) : parseValue n (' ' :: t) = parseValue n t := by
  rcases n with _ | n
  · rfl
  · rw [parseValue, parseValue, skipBlanks_space]

theorem parseItems_space (n : ℕ) (t : Text) : parseItems n (' ' :: t) = parseItems n t := by
  rcases n with _ | n
  · rfl
  · rw [parseItems, parseItems, parseValue_space]

theorem parseMembers_space (n : ℕ) (t : Text) : parseMembers n (' ' :: t) = parseMembers n t := by
  rcases n with _ | n
  · rfl
  · rw [parseMembers, parseMembers, skipBlanks_space]

theorem parseValue_string (n : ℕ) (t : Text) : parseValue (n + 1) ('"' :: t) =
    (parseString (t.length + 1) t).map fun p => (str p.1, p.2) := by
  rw [parseValue, skipBlanks_cons (by decide)]
  exact if_pos rfl

theorem parseValue_array_nil (n : ℕ) (t : Text) :
    parseValue (n + 1) ('[' :: ']' :: t) = some (arr [], t) := by
  rw [parseValue, skipBlanks_cons (by decide)]
  dsimp only
  rw [if_neg (by decide), if_pos rfl, skipBlanks_cons (by decide)]
  exact if_pos rfl

theorem parseValue_array (n : ℕ) {c : Char} (hblank : isBlank c = false) (hne : c ≠ ']')
    (t : Text) : parseValue (n + 1) ('[' :: c :: t) =
      (parseItems n (c :: t)).map fun p => (arr p.1, p.2) := by
  rw [parseValue, skipBlanks_cons (by decide)]
  dsimp only
  rw [if_neg (by decide), if_pos rfl, skipBlanks_cons hblank]
  exact if_neg fun heq => hne (Option.some.inj heq)

theorem parseValue_object_nil (n : ℕ) (t : Text) :
    parseValue (n + 1) ('{' :: '}' :: t) = some (obj [], t) := by
  rw [parseValue, skipBlanks_cons (by decide)]
  dsimp only
  rw [if_neg (by decide), if_neg (by decide), if_pos rfl, skipBlanks_cons (by decide)]
  exact if_pos rfl

theorem parseValue_object (n : ℕ) (t : Text) : parseValue (n + 1) ('{' :: '"' :: t) =
    (parseMembers n ('"' :: t)).map fun p => (obj p.1, p.2) := by
  rw [parseValue, skipBlanks_cons (by decide)]
  dsimp only
  rw [if_neg (by decide), if_neg (by decide), if_pos rfl, skipBlanks_cons (by decide)]
  have hne : ('"' :: t).head? ≠ some '}' := fun heq => absurd (Option.some.inj heq) (by decide)
  exact if_neg hne

/-- The first character of a word or a number. -/
def BeginsScalar (c : Char) : Prop :=
  isBlank c = false ∧ c ≠ '"' ∧ c ≠ '[' ∧ c ≠ '{' ∧ c ≠ ']'

instance (c : Char) : Decidable (BeginsScalar c) := inferInstanceAs (Decidable (_ ∧ _))

theorem parseValue_scalar (n : ℕ) {c : Char} (h : BeginsScalar c) (t : Text) :
    parseValue (n + 1) (c :: t) = parseScalar (c :: t) := by
  obtain ⟨hblank, hquote, harray, hobject, -⟩ := h
  rw [parseValue, skipBlanks_cons hblank]
  dsimp only
  rw [if_neg hquote, if_neg harray, if_neg hobject]

theorem beginsScalar_of_isNumberChar {c : Char} (h : isNumberChar c = true) : BeginsScalar c := by
  have hne : ∀ d : Char, isNumberChar d = false → c ≠ d := by
    rintro d hd rfl
    rw [h] at hd
    exact Bool.noConfusion hd
  refine ⟨?_, hne _ (by decide), hne _ (by decide), hne _ (by decide), hne _ (by decide)⟩
  rw [isBlank, Bool.or_eq_false_iff, Bool.or_eq_false_iff, Bool.or_eq_false_iff]
  exact ⟨⟨⟨decide_eq_false (hne _ (by decide)), decide_eq_false (hne _ (by decide))⟩,
    decide_eq_false (hne _ (by decide))⟩, decide_eq_false (hne _ (by decide))⟩

/-- A number does not go on after the value. -/
def Ends (rest : Text) : Prop := ∀ c, rest.head? = some c → isNumberChar c = false

theorem ends_cons {c : Char} (h : isNumberChar c = false) (t : Text) : Ends (c :: t) := by
  intro d hd
  rw [← Option.some.inj hd]
  exact h

/-- A number is some of its characters. -/
theorem Number.eq_cons (n : Number) :
    ∃ c t, n.literal = c :: t ∧ ∀ d ∈ c :: t, isNumberChar d = true := by
  have hvalid := n.valid
  rw [isNumber, Bool.and_eq_true, List.all_eq_true] at hvalid
  obtain ⟨hall, hshape⟩ := hvalid
  rcases hliteral : n.literal with _ | ⟨c, t⟩
  · rw [hliteral] at hshape
    exact absurd hshape (by decide)
  · rw [hliteral] at hall
    exact ⟨c, t, rfl, hall⟩

theorem parseScalar_number (n : Number) {rest : Text} (h : Ends rest) :
    parseScalar (n.literal ++ rest) = some (num n, rest) := by
  obtain ⟨c, t, hliteral, hall⟩ := n.eq_cons
  have hword : ∀ d u, isNumberChar d = false → (d :: u).isPrefixOf (n.literal ++ rest) = false := by
    intro d u hd
    rw [hliteral, List.cons_append, List.isPrefixOf, Bool.and_eq_false_iff]
    refine .inl (beq_false_of_ne fun heq => ?_)
    rw [heq, hall c List.mem_cons_self] at hd
    exact Bool.noConfusion hd
  have htake : (n.literal ++ rest).takeWhile isNumberChar = n.literal := by
    rw [hliteral, List.takeWhile_append_of_pos hall]
    rcases rest with _ | ⟨d, rest⟩
    · rw [List.takeWhile_nil, List.append_nil]
    · rw [List.takeWhile_cons_of_neg (by rw [h d rfl]; exact Bool.noConfusion), List.append_nil]
  have hdrop : (n.literal ++ rest).dropWhile isNumberChar = rest := by
    rw [hliteral, List.dropWhile_append_of_pos hall]
    rcases rest with _ | ⟨d, rest⟩
    · rfl
    · rw [List.dropWhile_cons_of_neg (by rw [h d rfl]; exact Bool.noConfusion)]
  have hnull : "null".toList.isPrefixOf (n.literal ++ rest) = false := hword _ _ (by decide)
  have htrue : "true".toList.isPrefixOf (n.literal ++ rest) = false := hword _ _ (by decide)
  have hfalse : "false".toList.isPrefixOf (n.literal ++ rest) = false := hword _ _ (by decide)
  rw [parseScalar, if_neg (by rw [hnull]; exact Bool.noConfusion),
    if_neg (by rw [htrue]; exact Bool.noConfusion),
    if_neg (by rw [hfalse]; exact Bool.noConfusion)]
  simp only [htake, hdrop, n.valid, dif_pos]

end Tokens

/-! ### What is printed is read back -/

section Values

variable (ensureAscii : Bool)

/-- A value begins with a character that is no blank and closes no array. -/
theorem dumps_eq_cons (v : Json) :
    ∃ c t, dumps ensureAscii v = c :: t ∧ isBlank c = false ∧ c ≠ ']' := by
  cases v with
  | null => exact ⟨_, _, rfl, by decide, by decide⟩
  | bool b =>
    cases b with
    | false => exact ⟨_, _, rfl, by decide, by decide⟩
    | true => exact ⟨_, _, rfl, by decide, by decide⟩
  | num n =>
    obtain ⟨c, t, hliteral, hall⟩ := n.eq_cons
    have hc := beginsScalar_of_isNumberChar (hall c List.mem_cons_self)
    exact ⟨c, t, hliteral, hc.1, hc.2.2.2.2⟩
  | str s => exact ⟨_, _, rfl, by decide, by decide⟩
  | arr items => exact ⟨_, _, rfl, by decide, by decide⟩
  | obj members => exact ⟨_, _, rfl, by decide, by decide⟩

/-- So do the items of an array. -/
theorem dumpsItems_eq_cons (v : Json) (vs : List Json) :
    ∃ c t, dumpsItems ensureAscii (v :: vs) = c :: t ∧ isBlank c = false ∧ c ≠ ']' := by
  obtain ⟨c, t, hdumps, hc⟩ := dumps_eq_cons ensureAscii v
  rcases vs with _ | ⟨w, vs⟩
  · exact ⟨c, t, hdumps, hc⟩
  · have hitems : dumpsItems ensureAscii (v :: w :: vs) =
        dumps ensureAscii v ++ ',' :: ' ' :: dumpsItems ensureAscii (w :: vs) := rfl
    rw [hitems, hdumps]
    exact ⟨c, _, rfl, hc⟩

/-- The members of an object begin with the quote of a key. -/
theorem dumpsMembers_eq_cons (m : Text × Json) (ms : List (Text × Json)) :
    ∃ t, dumpsMembers ensureAscii (m :: ms) = '"' :: t := by
  obtain ⟨k, v⟩ := m
  rcases ms with _ | ⟨m, ms⟩
  · exact ⟨_, rfl⟩
  · exact ⟨_, rfl⟩

variable {ensureAscii}

theorem parseString_append (s t : Text) :
    parseString ((s.flatMap (escapeChar ensureAscii) ++ '"' :: t).length + 1)
      (s.flatMap (escapeChar ensureAscii) ++ '"' :: t) = some (s, t) := by
  refine parseString_dumpsString s t ?_
  have hlength : s.length ≤ (s.flatMap (escapeChar ensureAscii)).length := length_le_flatMap s
  rw [List.length_append]
  omega

theorem parseKey_dumpsString (k t : Text) :
    parseKey (dumpsString ensureAscii k ++ ':' :: t) = some (k, t) := by
  rw [dumpsString, List.cons_append, List.append_assoc, List.singleton_append]
  rw [parseKey, if_pos rfl, parseString_append, Option.bind_eq_bind, Option.bind_some]
  dsimp only
  rw [skipBlanks_cons (by decide)]
  exact if_pos rfl

/-- One step of the loop over the items. -/
theorem parseItems_of_value {n : ℕ} {t u : Text} {v : Json} {c : Char}
    (h : parseValue n t = some (v, c :: u)) (hblank : isBlank c = false) :
    parseItems (n + 1) t =
      if c = ',' then (parseItems n u).map fun p => (v :: p.1, p.2)
      else if c = ']' then some ([v], u) else none := by
  rw [parseItems, h, Option.bind_eq_bind, Option.bind_some]
  dsimp only
  rw [skipBlanks_cons hblank]
  rfl

/-- One step of the loop over the members. -/
theorem parseMembers_of_value {n : ℕ} {k t u : Text} {v : Json} {c : Char}
    (h : parseValue n t = some (v, c :: u)) (hblank : isBlank c = false) :
    parseMembers (n + 1) (dumpsString ensureAscii k ++ ':' :: t) =
      if c = ',' then (parseMembers n u).map fun p => ((k, v) :: p.1, p.2)
      else if c = '}' then some ([(k, v)], u) else none := by
  have hskip : skipBlanks (dumpsString ensureAscii k ++ ':' :: t) =
      dumpsString ensureAscii k ++ ':' :: t := skipBlanks_cons (by decide) _
  rw [parseMembers, hskip, parseKey_dumpsString, Option.bind_eq_bind, Option.bind_some]
  dsimp only
  rw [h, Option.bind_eq_bind, Option.bind_some]
  dsimp only
  rw [skipBlanks_cons hblank]
  rfl

mutual

/-- **A value is read as it was written**, where the fuel is more than what is written. -/
theorem parseValue_dumps : ∀ (v : Json) (n : ℕ) (rest : Text),
    (dumps ensureAscii v).length < n → Ends rest →
      parseValue n (dumps ensureAscii v ++ rest) = some (v, rest)
  | _, 0, _, hn, _ => absurd hn (Nat.not_lt_zero _)
  | null, n + 1, rest, _, _ => parseValue_scalar n (by decide) _
  | bool true, n + 1, rest, _, _ => parseValue_scalar n (by decide) _
  | bool false, n + 1, rest, _, _ => parseValue_scalar n (by decide) _
  | num number, n + 1, rest, _, hrest => by
    obtain ⟨c, t, hliteral, hall⟩ := number.eq_cons
    have hscalar := parseScalar_number number hrest
    rw [dumps, ← hscalar, hliteral]
    exact parseValue_scalar n (beginsScalar_of_isNumberChar (hall c List.mem_cons_self)) _
  | str s, n + 1, rest, _, _ => by
    rw [dumps, dumpsString, List.cons_append, parseValue_string, List.append_assoc,
      List.singleton_append, parseString_append]
    rfl
  | arr [], n + 1, rest, _, _ => parseValue_array_nil n rest
  | arr (v :: vs), n + 1, rest, hn, _ => by
    obtain ⟨c, t, hitems, hblank, hne⟩ := dumpsItems_eq_cons ensureAscii v vs
    have hread := parseItems_dumps v vs n rest (by
      rw [dumps, List.length_cons, List.length_append] at hn
      exact Nat.lt_of_succ_lt_succ hn)
    rw [dumps, List.cons_append, List.append_assoc, List.singleton_append]
    rw [hitems, List.cons_append] at hread ⊢
    rw [parseValue_array n hblank hne, hread]
    rfl
  | obj [], n + 1, rest, _, _ => parseValue_object_nil n rest
  | obj (m :: ms), n + 1, rest, hn, _ => by
    obtain ⟨t, hmembers⟩ := dumpsMembers_eq_cons ensureAscii m ms
    have hread := parseMembers_dumps m ms n rest (by
      rw [dumps, List.length_cons, List.length_append] at hn
      exact Nat.lt_of_succ_lt_succ hn)
    rw [dumps, List.cons_append, List.append_assoc, List.singleton_append]
    rw [hmembers, List.cons_append] at hread ⊢
    rw [parseValue_object, hread]
    rfl
termination_by structural _ n => n

/-- So are the items of an array. -/
theorem parseItems_dumps : ∀ (v : Json) (vs : List Json) (n : ℕ) (rest : Text),
    (dumpsItems ensureAscii (v :: vs)).length + 1 < n →
      parseItems n (dumpsItems ensureAscii (v :: vs) ++ ']' :: rest) = some (v :: vs, rest)
  | _, _, 0, _, hn => absurd hn (Nat.not_lt_zero _)
  | v, [], n + 1, rest, hn => by
    have hvalue := parseValue_dumps v n (']' :: rest) (Nat.lt_of_succ_lt_succ hn)
      (ends_cons (by decide) _)
    have hitems : dumpsItems ensureAscii [v] = dumps ensureAscii v := rfl
    rw [hitems, parseItems_of_value hvalue (by decide), if_neg (by decide), if_pos rfl]
  | v, w :: vs, n + 1, rest, hn => by
    have hitems : dumpsItems ensureAscii (v :: w :: vs) =
        dumps ensureAscii v ++ ',' :: ' ' :: dumpsItems ensureAscii (w :: vs) := rfl
    rw [hitems] at hn ⊢
    rw [List.length_append, List.length_cons, List.length_cons] at hn
    have hvalue := parseValue_dumps v n
      (',' :: ' ' :: (dumpsItems ensureAscii (w :: vs) ++ ']' :: rest)) (by omega)
      (ends_cons (by decide) _)
    have hread := parseItems_dumps w vs n rest (by omega)
    rw [List.append_assoc, List.cons_append, List.cons_append,
      parseItems_of_value hvalue (by decide), if_pos rfl, parseItems_space, hread]
    rfl
termination_by structural _ _ n => n

/-- So are the members of an object. -/
theorem parseMembers_dumps : ∀ (m : Text × Json) (ms : List (Text × Json)) (n : ℕ) (rest : Text),
    (dumpsMembers ensureAscii (m :: ms)).length + 1 < n →
      parseMembers n (dumpsMembers ensureAscii (m :: ms) ++ '}' :: rest) = some (m :: ms, rest)
  | _, _, 0, _, hn => absurd hn (Nat.not_lt_zero _)
  | (k, v), [], n + 1, rest, hn => by
    have hmembers : dumpsMembers ensureAscii [(k, v)] =
        dumpsString ensureAscii k ++ ':' :: ' ' :: dumps ensureAscii v := rfl
    rw [hmembers] at hn ⊢
    rw [List.length_append, List.length_cons, List.length_cons] at hn
    have hvalue := parseValue_dumps v n ('}' :: rest) (by omega) (ends_cons (by decide) _)
    rw [← parseValue_space] at hvalue
    rw [List.append_assoc, List.cons_append, List.cons_append,
      parseMembers_of_value hvalue (by decide), if_neg (by decide), if_pos rfl]
  | (k, v), m :: ms, n + 1, rest, hn => by
    have hmembers : dumpsMembers ensureAscii ((k, v) :: m :: ms) =
        dumpsString ensureAscii k ++ ':' :: ' ' :: (dumps ensureAscii v ++
          ',' :: ' ' :: dumpsMembers ensureAscii (m :: ms)) := rfl
    rw [hmembers] at hn ⊢
    rw [List.length_append, List.length_cons, List.length_cons, List.length_append,
      List.length_cons, List.length_cons] at hn
    have hvalue := parseValue_dumps v n
      (',' :: ' ' :: (dumpsMembers ensureAscii (m :: ms) ++ '}' :: rest)) (by omega)
      (ends_cons (by decide) _)
    rw [← parseValue_space] at hvalue
    have hread := parseMembers_dumps m ms n rest (by omega)
    rw [List.append_assoc, List.cons_append, List.cons_append, List.append_assoc,
      List.cons_append, List.cons_append, parseMembers_of_value hvalue (by decide), if_pos rfl,
      parseMembers_space, hread]
    rfl
termination_by structural _ _ n => n

end

/-- **What is printed is read back.** -/
theorem parse_dumps (ensureAscii : Bool) (v : Json) : parse (dumps ensureAscii v) = some v := by
  have hends : Ends [] := fun c hc => by cases hc
  have hread : parseValue ((dumps ensureAscii v).length + 1) (dumps ensureAscii v ++ []) =
      some (v, []) := parseValue_dumps v _ [] (Nat.lt_succ_self _) hends
  rw [List.append_nil] at hread
  rw [parse, hread]
  rfl

end Values

/-! ### What is printed is a single line -/

section Line

/-- No control character, and where only ASCII is asked for, nothing else. -/
def Printable (ensureAscii : Bool) (c : Char) : Prop :=
  0x20 ≤ c.toNat ∧ (ensureAscii = true → c.toNat < 0x7f)

instance (ensureAscii : Bool) (c : Char) : Decidable (Printable ensureAscii c) :=
  inferInstanceAs (Decidable (_ ∧ _))

variable {ensureAscii : Bool}

theorem printable_of_ascii {c : Char} (h : 0x20 ≤ c.toNat ∧ c.toNat < 0x7f) :
    Printable ensureAscii c := ⟨h.1, fun _ => h.2⟩

theorem printable_unicodeEscape (n : ℕ) : ∀ c ∈ unicodeEscape n, Printable ensureAscii c := by
  have hdigit : ∀ m < 16, 0x20 ≤ (hexDigit m).toNat ∧ (hexDigit m).toNat < 0x7f := by
    decide +kernel
  have hmod : ∀ m, Printable ensureAscii (hexDigit (m % 16)) := fun m =>
    printable_of_ascii (hdigit _ (Nat.mod_lt _ (by omega)))
  intro c hc
  simp only [unicodeEscape, hexDigits, List.mem_cons, List.not_mem_nil, or_false] at hc
  rcases hc with rfl | rfl | rfl | rfl | rfl | rfl
  · exact printable_of_ascii (by decide)
  · exact printable_of_ascii (by decide)
  all_goals exact hmod _

theorem printable_escapeChar (c : Char) :
    ∀ d ∈ escapeChar ensureAscii c, Printable ensureAscii d := by
  rcases escapeChar_cases ensureAscii c with ⟨e, hescape, -, -, hlow, hhigh⟩ | ⟨-, hescape⟩ |
    ⟨-, hescape⟩ | ⟨hescape, -, -, hcontrol, hascii⟩
  · rw [hescape, List.forall_mem_cons, List.forall_mem_singleton]
    exact ⟨printable_of_ascii (by decide), printable_of_ascii ⟨hlow, hhigh⟩⟩
  · rw [hescape]
    exact printable_unicodeEscape _
  · rw [hescape, List.forall_mem_append]
    exact ⟨printable_unicodeEscape _, printable_unicodeEscape _⟩
  · rw [hescape, List.forall_mem_singleton]
    exact ⟨hcontrol, hascii⟩

theorem printable_dumpsString (s : Text) :
    ∀ c ∈ dumpsString ensureAscii s, Printable ensureAscii c := by
  rw [dumpsString, List.forall_mem_cons, List.forall_mem_append]
  refine ⟨printable_of_ascii (by decide), fun c hc => ?_, fun c hc => ?_⟩
  · obtain ⟨d, -, hd⟩ := List.mem_flatMap.mp hc
    exact printable_escapeChar d c hd
  · rw [List.mem_singleton.mp hc]
    exact printable_of_ascii (by decide)

theorem printable_of_isNumberChar {c : Char} (h : isNumberChar c = true) :
    Printable ensureAscii c := by
  refine printable_of_ascii ?_
  simp only [isNumberChar, Bool.or_eq_true, decide_eq_true_eq, or_assoc] at h
  rcases h with hdigit | rfl | rfl | rfl | rfl | rfl
  · have hbounds := Char.isDigit_iff_toNat.mp hdigit
    have hzero : '0'.toNat = 48 := rfl
    have hnine : '9'.toNat = 57 := rfl
    omega
  all_goals decide

/-- A word of ASCII letters. -/
theorem printable_word {word : Text} (h : ∀ c ∈ word, 0x20 ≤ c.toNat ∧ c.toNat < 0x7f) :
    ∀ c ∈ word, Printable ensureAscii c := fun c hc => printable_of_ascii (h c hc)

mutual

theorem printable_dumps : ∀ v : Json, ∀ c ∈ dumps ensureAscii v, Printable ensureAscii c
  | null => by
    have hword : ∀ c ∈ "null".toList, 0x20 ≤ c.toNat ∧ c.toNat < 0x7f := by decide
    exact printable_word hword
  | bool true => by
    have hword : ∀ c ∈ "true".toList, 0x20 ≤ c.toNat ∧ c.toNat < 0x7f := by decide
    exact printable_word hword
  | bool false => by
    have hword : ∀ c ∈ "false".toList, 0x20 ≤ c.toNat ∧ c.toNat < 0x7f := by decide
    exact printable_word hword
  | num n => fun c hc => by
    obtain ⟨d, t, hliteral, hall⟩ := n.eq_cons
    rw [dumps, hliteral] at hc
    exact printable_of_isNumberChar (hall c hc)
  | str s => printable_dumpsString s
  | arr items => by
    rw [dumps, List.forall_mem_cons, List.forall_mem_append, List.forall_mem_singleton]
    exact ⟨printable_of_ascii (by decide), printable_dumpsItems items,
      printable_of_ascii (by decide)⟩
  | obj members => by
    rw [dumps, List.forall_mem_cons, List.forall_mem_append, List.forall_mem_singleton]
    exact ⟨printable_of_ascii (by decide), printable_dumpsMembers members,
      printable_of_ascii (by decide)⟩
termination_by structural v => v

theorem printable_dumpsItems :
    ∀ vs : List Json, ∀ c ∈ dumpsItems ensureAscii vs, Printable ensureAscii c
  | [] => fun _ hc => absurd hc List.not_mem_nil
  | [v] => printable_dumps v
  | v :: w :: vs => by
    have hitems : dumpsItems ensureAscii (v :: w :: vs) =
        dumps ensureAscii v ++ ',' :: ' ' :: dumpsItems ensureAscii (w :: vs) := rfl
    rw [hitems, List.forall_mem_append, List.forall_mem_cons, List.forall_mem_cons]
    exact ⟨printable_dumps v, printable_of_ascii (by decide), printable_of_ascii (by decide),
      printable_dumpsItems (w :: vs)⟩
termination_by structural vs => vs

theorem printable_dumpsMembers :
    ∀ ms : List (Text × Json), ∀ c ∈ dumpsMembers ensureAscii ms, Printable ensureAscii c
  | [] => fun _ hc => absurd hc List.not_mem_nil
  | [(k, v)] => by
    have hmembers : dumpsMembers ensureAscii [(k, v)] =
        dumpsString ensureAscii k ++ ':' :: ' ' :: dumps ensureAscii v := rfl
    rw [hmembers, List.forall_mem_append, List.forall_mem_cons, List.forall_mem_cons]
    exact ⟨printable_dumpsString k, printable_of_ascii (by decide), printable_of_ascii (by decide),
      printable_dumps v⟩
  | (k, v) :: m :: ms => by
    have hmembers : dumpsMembers ensureAscii ((k, v) :: m :: ms) =
        dumpsString ensureAscii k ++ ':' :: ' ' :: (dumps ensureAscii v ++
          ',' :: ' ' :: dumpsMembers ensureAscii (m :: ms)) := rfl
    rw [hmembers, List.forall_mem_append, List.forall_mem_cons, List.forall_mem_cons,
      List.forall_mem_append, List.forall_mem_cons, List.forall_mem_cons]
    exact ⟨printable_dumpsString k, printable_of_ascii (by decide), printable_of_ascii (by decide),
      printable_dumps v, printable_of_ascii (by decide), printable_of_ascii (by decide),
      printable_dumpsMembers (m :: ms)⟩
termination_by structural ms => ms

end

/-- **What is printed is a single line.** -/
theorem newline_notMem_dumps (ensureAscii : Bool) (v : Json) : '\n' ∉ dumps ensureAscii v := by
  intro h
  exact absurd (printable_dumps v _ h).1 (by decide)

end Line

/-! ### Compact arrays of strings -/

section Compact

/-- The strings of an array, with nothing after the commas. -/
def dumpsStrings (ensureAscii : Bool) : List Text → Text
  | [] => []
  | [s] => dumpsString ensureAscii s
  | s :: ss => dumpsString ensureAscii s ++ ',' :: dumpsStrings ensureAscii ss

/-- `json.dumps` of a list of strings, where the separators are a comma and a colon alone. -/
def dumpsCompact (ensureAscii : Bool) (strings : List Text) : Text :=
  '[' :: (dumpsStrings ensureAscii strings ++ [']'])

variable {ensureAscii : Bool}

theorem parseValue_dumpsString (n : ℕ) (s t : Text) :
    parseValue (n + 1) (dumpsString ensureAscii s ++ t) = some (str s, t) := by
  rw [dumpsString, List.cons_append, parseValue_string, List.append_assoc, List.singleton_append,
    parseString_append]
  rfl

theorem parseItems_dumpsStrings (s : Text) (ss : List Text) {n : ℕ} (hn : ss.length + 1 < n)
    (rest : Text) : parseItems n (dumpsStrings ensureAscii (s :: ss) ++ ']' :: rest) =
      some ((s :: ss).map str, rest) := by
  induction ss generalizing s n with
  | nil =>
    obtain ⟨m, rfl⟩ : ∃ m, n = m + 2 := ⟨n - 2, by rw [List.length_nil] at hn; omega⟩
    have hvalue : parseValue (m + 1) (dumpsString ensureAscii s ++ ']' :: rest) =
        some (str s, ']' :: rest) := parseValue_dumpsString m s _
    have hone : dumpsStrings ensureAscii [s] = dumpsString ensureAscii s := rfl
    rw [hone, parseItems_of_value hvalue (by decide), if_neg (by decide), if_pos rfl]
    rfl
  | cons w ss ih =>
    rw [List.length_cons] at hn
    obtain ⟨m, rfl⟩ : ∃ m, n = m + 2 := ⟨n - 2, by omega⟩
    have hmore : dumpsStrings ensureAscii (s :: w :: ss) =
        dumpsString ensureAscii s ++ ',' :: dumpsStrings ensureAscii (w :: ss) := rfl
    have hvalue : parseValue (m + 1) (dumpsString ensureAscii s ++
        ',' :: (dumpsStrings ensureAscii (w :: ss) ++ ']' :: rest)) =
        some (str s, ',' :: (dumpsStrings ensureAscii (w :: ss) ++ ']' :: rest)) :=
      parseValue_dumpsString m s _
    rw [hmore, List.append_assoc, List.cons_append, parseItems_of_value hvalue (by decide),
      if_pos rfl, ih w (by omega)]
    rfl

/-- The strings take up more characters than they are many. -/
theorem length_lt_dumpsStrings (s : Text) (ss : List Text) :
    ss.length + 1 < (dumpsStrings ensureAscii (s :: ss)).length := by
  induction ss generalizing s with
  | nil =>
    have hone : dumpsStrings ensureAscii [s] = dumpsString ensureAscii s := rfl
    rw [hone, dumpsString, List.length_cons, List.length_append, List.length_singleton,
      List.length_nil]
    omega
  | cons w ss ih =>
    have hmore : dumpsStrings ensureAscii (s :: w :: ss) =
        dumpsString ensureAscii s ++ ',' :: dumpsStrings ensureAscii (w :: ss) := rfl
    have hrest := ih w
    rw [hmore, List.length_append, List.length_cons, List.length_cons]
    omega

/-- **A list of strings is read as it was written.** -/
theorem parse_dumpsCompact (strings : List Text) :
    parse (dumpsCompact ensureAscii strings) = some (arr (strings.map str)) := by
  rcases strings with _ | ⟨s, ss⟩
  · rfl
  · obtain ⟨t, hbegin⟩ : ∃ t, dumpsStrings ensureAscii (s :: ss) ++ [']'] = '"' :: t := by
      rcases ss with _ | ⟨w, ss⟩
      · exact ⟨_, rfl⟩
      · exact ⟨_, rfl⟩
    have hlength := congrArg List.length hbegin
    have hmany : ss.length + 1 < (dumpsStrings ensureAscii (s :: ss)).length :=
      length_lt_dumpsStrings s ss
    rw [List.length_append, List.length_singleton, List.length_cons] at hlength
    have hread : parseItems (('[' :: '"' :: t).length) ('"' :: t) =
        some ((s :: ss).map str, []) := by
      rw [← hbegin]
      refine parseItems_dumpsStrings s ss ?_ []
      rw [List.length_cons, List.length_append, List.length_singleton]
      omega
    rw [parse, dumpsCompact, hbegin, parseValue_array _ (by decide) (by decide), hread]
    rfl

/-- **It is ASCII** if nothing else is asked for. -/
theorem printable_dumpsCompact (strings : List Text) :
    ∀ c ∈ dumpsCompact ensureAscii strings, Printable ensureAscii c := by
  have hstrings : ∀ c ∈ dumpsStrings ensureAscii strings, Printable ensureAscii c := by
    induction strings with
    | nil => exact fun c hc => absurd hc List.not_mem_nil
    | cons s ss ih =>
      rcases ss with _ | ⟨w, ss⟩
      · exact printable_dumpsString s
      · have hmore : dumpsStrings ensureAscii (s :: w :: ss) =
            dumpsString ensureAscii s ++ ',' :: dumpsStrings ensureAscii (w :: ss) := rfl
        rw [hmore, List.forall_mem_append, List.forall_mem_cons]
        exact ⟨printable_dumpsString s, printable_of_ascii (by decide), ih⟩
  rw [dumpsCompact, List.forall_mem_cons, List.forall_mem_append, List.forall_mem_singleton]
  exact ⟨printable_of_ascii (by decide), hstrings, printable_of_ascii (by decide)⟩

end Compact

end Json

end AiAgent
