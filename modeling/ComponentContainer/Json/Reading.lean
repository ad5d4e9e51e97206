/-
  File:      ComponentContainer/Json/Reading.lean
  Subject:   Reading JSON from the left.

  Reading stops at the first thing that is wrong, so what is wrong is told by the first such place:
  the text is not JSON there (`Fault.malformed`), or it is and does not fit (`Fault.unfit`).

  * `readText` -- a JSON string, after its opening quotation mark; `readText_quoteChars` -- what
    was written is read back.
  * `readNumber` -- a number.
  * `scanValue` -- any value. Read strictly, strings are decoded, numbers must fit into a double,
    and lists and objects nest at most so deep; read leniently, for a value that nobody wants,
    only the grammar counts.
  * `nextElement`, `nextKey`, `close` -- the way through a list or an object.
-/
import ComponentContainer.Json
import ComponentContainer.Json.Numeral

namespace ComponentContainer.Json

/-! ## 1. Faults and spaces -/

/-- What can be wrong at a place of a text. -/
inductive Fault where
  /-- The text is not JSON, or ends early. -/
  | malformed
  /-- The text is JSON so far but does not fit. -/
  | unfit
  deriving DecidableEq, Repr

/-- The spaces that JSON allows between its parts. -/
def isSpace (c : Char) : Bool := c = ' ' || c = '\n' || c = '\t' || c = '\r'

def skipSpaces (cs : List Char) : List Char := cs.dropWhile isSpace

/-- What is left after a given word. -/
def word : List Char → List Char → Except Fault (List Char)
  | [], cs => .ok cs
  | w :: ws, c :: cs => if w = c then word ws cs else .error .malformed
  | _ :: _, [] => .error .malformed

/-! ## 2. Strings -/

/-- The value of a digit to base sixteen. -/
def hexValue? (c : Char) : Option Nat :=
  if '0' ≤ c ∧ c ≤ '9' then some (c.toNat - 48)
  else if 'a' ≤ c ∧ c ≤ 'f' then some (c.toNat - 87)
  else if 'A' ≤ c ∧ c ≤ 'F' then some (c.toNat - 55)
  else none

/-- Four digits to base sixteen. -/
def unit? : List Char → Option (Nat × List Char)
  | a :: b :: c :: d :: rest =>
    match hexValue? a, hexValue? b, hexValue? c, hexValue? d with
    | some a, some b, some c, some d => some (((a * 16 + b) * 16 + c) * 16 + d, rest)
    | _, _, _, _ => none
  | _ => none

/-- The first half of a pair of units. -/
def isHigh (n : Nat) : Bool := 0xD800 ≤ n && n ≤ 0xDBFF

/-- The second half of a pair of units. -/
def isLow (n : Nat) : Bool := 0xDC00 ≤ n && n ≤ 0xDFFF

/-- A character given by its units: one, or a pair of halves in the right order. -/
def codePoint? (cs : List Char) : Option (Char × List Char) :=
  match unit? cs with
  | none => none
  | some (n, rest) =>
    if isLow n then none
    else if isHigh n then
      match rest with
      | '\\' :: 'u' :: more =>
        match unit? more with
        | some (m, rest) =>
          if isLow m then some (Char.ofNat (0x10000 + (n - 0xD800) * 0x400 + (m - 0xDC00)), rest)
          else none
        | none => none
      | _ => none
    else some (Char.ofNat n, rest)

/-- The character that an escape stands for, after its backslash. -/
def escape? : List Char → Option (Char × List Char)
  | '"' :: rest => some ('"', rest)
  | '\\' :: rest => some ('\\', rest)
  | '/' :: rest => some ('/', rest)
  | 'b' :: rest => some ('\x08', rest)
  | 'f' :: rest => some ('\x0c', rest)
  | 'n' :: rest => some ('\n', rest)
  | 'r' :: rest => some ('\r', rest)
  | 't' :: rest => some ('\t', rest)
  | 'u' :: rest => codePoint? rest
  | _ => none

/-- What is left after an escape that nobody wants: any four digits will do. -/
def skipEscape? : List Char → Option (List Char)
  | 'u' :: rest => (unit? rest).map Prod.snd
  | cs => (escape? cs).map Prod.snd

theorem length_of_unit? {cs rest : List Char} {n : Nat} (h : unit? cs = some (n, rest)) :
    rest.length < cs.length := by
  unfold unit? at h
  split at h
  · split at h
    · simp only [Option.some.injEq, Prod.mk.injEq] at h
      rw [← h.2]
      simp only [List.length_cons]
      omega
    · cases h
  · cases h

theorem length_of_codePoint? {cs rest : List Char} {c : Char}
    (h : codePoint? cs = some (c, rest)) : rest.length < cs.length := by
  unfold codePoint? at h
  split at h
  · cases h
  next n r hu =>
    have hr := length_of_unit? hu
    split at h
    · cases h
    · split at h
      · split at h
        · split at h
          next more m r' hu' =>
            split at h
            · simp only [Option.some.injEq, Prod.mk.injEq] at h
              have hr' := length_of_unit? hu'
              rw [← h.2]
              simp only [List.length_cons] at hr
              omega
            · cases h
          · cases h
        · cases h
      · simp only [Option.some.injEq, Prod.mk.injEq] at h
        rw [← h.2]
        exact hr

theorem length_of_escape? {cs rest : List Char} {c : Char} (h : escape? cs = some (c, rest)) :
    rest.length < cs.length := by
  unfold escape? at h
  split at h
  case h_9 =>
    have := length_of_codePoint? h
    simp only [List.length_cons]
    omega
  case h_10 => cases h
  all_goals
    simp only [Option.some.injEq, Prod.mk.injEq] at h
    rw [← h.2]
    simp

theorem length_of_skipEscape? {cs rest : List Char} (h : skipEscape? cs = some rest) :
    rest.length < cs.length := by
  unfold skipEscape? at h
  split at h
  · obtain ⟨⟨n, r⟩, hu, rfl⟩ := Option.map_eq_some_iff.mp h
    have := length_of_unit? hu
    simp only [List.length_cons]
    omega
  · obtain ⟨⟨c, r⟩, he, rfl⟩ := Option.map_eq_some_iff.mp h
    exact length_of_escape? he

/-- A JSON string, after its opening quotation mark. -/
def readText (cs : List Char) : Except Fault (List Char × List Char) :=
  match cs with
  | [] => .error .malformed
  | c :: rest =>
    if c = '"' then .ok ([], rest)
    else if c = '\\' then
      match h : escape? rest with
      | none => .error .malformed
      | some (d, more) =>
        have := length_of_escape? h
        (readText more).map fun read => (d :: read.1, read.2)
    else if c.toNat < 0x20 then .error .malformed
    else (readText rest).map fun read => (c :: read.1, read.2)
termination_by cs.length

/-! What was written is read back. -/

theorem hexValue?_hexDigit {n : Nat} (h : n < 16) : hexValue? (hexDigit n) = some n := by
  have all : ∀ k : Fin 16, hexValue? (hexDigit k.val) = some k.val := by decide
  exact all ⟨n, h⟩

theorem unit?_hexDigits {n : Nat} (h : n < 32) (rest : List Char) :
    unit? ('0' :: '0' :: hexDigit (n / 16) :: hexDigit (n % 16) :: rest) = some (n, rest) := by
  have zero : hexValue? '0' = some 0 := by decide
  simp only [unit?, zero, hexValue?_hexDigit (show n / 16 < 16 by omega),
    hexValue?_hexDigit (show n % 16 < 16 by omega)]
  congr 2
  omega

theorem escape?_control {n : Nat} (h : n < 32) (rest : List Char) :
    escape? ('u' :: '0' :: '0' :: hexDigit (n / 16) :: hexDigit (n % 16) :: rest) =
      some (Char.ofNat n, rest) := by
  have hlow : isLow n = false := by simp [isLow]; omega
  have hhigh : isHigh n = false := by simp [isHigh]; omega
  simp [escape?, codePoint?, unit?_hexDigits h, hlow, hhigh]

/-- One written character is read back. -/
theorem readText_escapeChar (c : Char) (rest : List Char) :
    readText (escapeChar c ++ rest) =
      (readText rest).map fun read => (c :: read.1, read.2) := by
  have escaped {d : Char} {tail : List Char} (he : escape? tail = some (d, rest)) :
      readText ('\\' :: tail) = (readText rest).map fun read => (d :: read.1, read.2) := by
    rw [readText.eq_def]
    simp only [show ¬ ('\\' : Char) = '"' by decide, if_false, if_true]
    split
    next hn => rw [he] at hn; cases hn
    next d' more hs =>
      rw [he] at hs
      simp only [Option.some.injEq, Prod.mk.injEq] at hs
      rw [hs.1, hs.2]
  unfold escapeChar
  split
  next h => subst h; exact escaped rfl
  split
  next h => subst h; exact escaped rfl
  split
  next h => subst h; exact escaped rfl
  split
  next h => subst h; exact escaped rfl
  split
  next h => subst h; exact escaped rfl
  split
  next h => subst h; exact escaped rfl
  split
  next h => subst h; exact escaped rfl
  split
  next h =>
    have := escape?_control h rest
    rw [Char.ofNat_toNat] at this
    exact escaped this
  next hq hb _ _ _ _ _ hc =>
    rw [List.singleton_append, readText.eq_def]
    simp only [hq, hb, hc, if_false]

/-- **What was written is read back**, whatever follows it. -/
theorem readText_quoteChars (cs rest : List Char) :
    readText (quoteChars cs ++ rest) = .ok (cs, rest) := by
  unfold quoteChars
  induction cs with
  | nil =>
    rw [readText.eq_def]
    simp
  | cons c more ih =>
    rw [List.flatMap_cons, List.append_assoc, List.append_assoc, readText_escapeChar]
    rw [List.append_assoc] at ih
    rw [ih]
    rfl

/-- What is left after a JSON string that nobody wants. -/
def skipText (cs : List Char) : Except Fault (List Char) :=
  match cs with
  | [] => .error .malformed
  | c :: rest =>
    if c = '"' then .ok rest
    else if c = '\\' then
      match h : skipEscape? rest with
      | none => .error .malformed
      | some more =>
        have := length_of_skipEscape? h
        skipText more
    else if c.toNat < 0x20 then .error .malformed
    else skipText rest
termination_by cs.length

/-! ## 3. Numbers -/

/-- A decimal digit. -/
def isDigit (c : Char) : Bool := '0' ≤ c && c ≤ '9'

/-- The number that decimal digits write. -/
def digitsValue (digits : List Nat) : Nat := digits.foldl (fun n d => n * 10 + d) 0

/-- The values of one decimal digit or more, and what is left. -/
def readDigits (cs : List Char) : Except Fault (List Nat × List Char) :=
  if (cs.takeWhile isDigit).isEmpty then .error .malformed
  else .ok ((cs.takeWhile isDigit).map fun c => c.toNat - 48, cs.dropWhile isDigit)

/-- The digits after the point, if there is a point. -/
def readFraction : List Char → Except Fault (List Nat × List Char)
  | '.' :: rest => readDigits rest
  | cs => .ok ([], cs)

/-- The exponent, if there is one. -/
def readExponent : List Char → Except Fault (Int × List Char)
  | c :: rest =>
    if c = 'e' || c = 'E' then
      match rest with
      | '-' :: more => (readDigits more).map fun r => (-(digitsValue r.1 : Int), r.2)
      | '+' :: more => (readDigits more).map fun r => ((digitsValue r.1 : Int), r.2)
      | _ => (readDigits rest).map fun r => ((digitsValue r.1 : Int), r.2)
    else .ok (0, c :: rest)
  | [] => .ok (0, [])

/-- A number after its sign: no zero in front of other digits. -/
def readNumber (cs : List Char) : Except Fault (Numeral × List Char) := do
  let (whole, rest) ← readDigits cs
  if whole.head? = some 0 ∧ 1 < whole.length then throw .malformed
  let (fraction, rest) ← readFraction rest
  let (exponent, rest) ← readExponent rest
  return (⟨whole, fraction, exponent⟩, rest)

/-! ## 4. Lists and objects -/

/-- How a value is read. -/
inductive Rigour where
  /-- Only the grammar counts. -/
  | lenient
  /-- Strings are decoded, numbers must fit into a double, and the nesting is bounded. -/
  | strict
  deriving DecidableEq

/-- Leaves room for one level less; none is left for the last one. -/
def enter (depth : Nat) : Except Fault Nat :=
  if depth ≤ 1 then .error .malformed else .ok (depth - 1)

/-- The depth that a text starts with. -/
def maxDepth : Nat := 128

/-- At an element, or at the end of a list. -/
def nextElement (first : Bool) (cs : List Char) : Except Fault (Bool × List Char) :=
  match skipSpaces cs with
  | ']' :: rest => .ok (false, ']' :: rest)
  | ',' :: rest =>
    if first then .ok (true, ',' :: rest)
    else match skipSpaces rest with
      | ']' :: _ => .error .malformed
      | [] => .error .malformed
      | c :: more => .ok (true, c :: more)
  | [] => .error .malformed
  | c :: rest => if first then .ok (true, c :: rest) else .error .malformed

/-- At the text of a key after its opening quotation mark, or at the end of an object. -/
def nextMember (first : Bool) (cs : List Char) : Except Fault (Bool × List Char) :=
  match skipSpaces cs with
  | '}' :: rest => .ok (false, '}' :: rest)
  | ',' :: rest =>
    if first then .error .malformed
    else match skipSpaces rest with
      | '"' :: more => .ok (true, more)
      | _ => .error .malformed
  | '"' :: rest => if first then .ok (true, rest) else .error .malformed
  | _ => .error .malformed

/-- What is left after a bracket that has to come next. -/
def close (bracket : Char) (cs : List Char) : Except Fault (List Char) :=
  match skipSpaces cs with
  | c :: rest => if c = bracket then .ok rest else .error .malformed
  | [] => .error .malformed

/-- What is left after the colon that has to come next. -/
def colon (cs : List Char) : Except Fault (List Char) := close ':' cs

/-- The next key of an object, if there is one. -/
def nextKey (first : Bool) (cs : List Char) : Except Fault (Option String × List Char) := do
  let (found, rest) ← nextMember first cs
  if found then
    let (key, rest) ← readText rest
    return (some (String.ofList key), rest)
  else return (none, rest)

/-- A number after its sign, read with the given rigour. -/
def scanNumber (rigour : Rigour) (cs : List Char) : Except Fault (List Char) := do
  let (n, rest) ← readNumber cs
  if rigour = .strict ∧ n.isTooLarge then throw .malformed
  return rest

/-- A string after its opening quotation mark, read with the given rigour: its text if it is
    decoded. -/
def scanText (rigour : Rigour) (cs : List Char) : Except Fault (Option String × List Char) :=
  match rigour with
  | .lenient => (skipText cs).map fun rest => (none, rest)
  | .strict => (readText cs).map fun read => (some (String.ofList read.1), read.2)

mutual

/-- Any value: the text if it is a decoded string, and what is left. The first number bounds the
    steps, the second the nesting. -/
def scanValue (rigour : Rigour) : Nat → Nat → List Char → Except Fault (Option String × List Char)
  | 0, _, _ => .error .malformed
  | steps + 1, depth, cs =>
    match skipSpaces cs with
    | [] => .error .malformed
    | 'n' :: rest => (word ['u', 'l', 'l'] rest).map fun rest => (none, rest)
    | 't' :: rest => (word ['r', 'u', 'e'] rest).map fun rest => (none, rest)
    | 'f' :: rest => (word ['a', 'l', 's', 'e'] rest).map fun rest => (none, rest)
    | '-' :: rest => (scanNumber rigour rest).map fun rest => (none, rest)
    | '"' :: rest => scanText rigour rest
    | '[' :: rest => do
      let depth ← if rigour = .strict then enter depth else pure depth
      return (none, ← scanElements rigour steps depth true rest)
    | '{' :: rest => do
      let depth ← if rigour = .strict then enter depth else pure depth
      return (none, ← scanMembers rigour steps depth true rest)
    | c :: rest =>
      if isDigit c then (scanNumber rigour (c :: rest)).map fun rest => (none, rest)
      else .error .malformed

/-- The elements of a list up to its end. -/
def scanElements (rigour : Rigour) : Nat → Nat → Bool → List Char → Except Fault (List Char)
  | 0, _, _, _ => .error .malformed
  | steps + 1, depth, first, cs => do
    let (found, rest) ← nextElement first cs
    if found then
      let (_, rest) ← scanValue rigour steps depth rest
      scanElements rigour steps depth false rest
    else close ']' rest

/-- The members of an object up to its end. -/
def scanMembers (rigour : Rigour) : Nat → Nat → Bool → List Char → Except Fault (List Char)
  | 0, _, _, _ => .error .malformed
  | steps + 1, depth, first, cs => do
    let (found, rest) ← nextMember first cs
    if found then
      let (_, rest) ← scanText rigour rest
      let rest ← colon rest
      let (_, rest) ← scanValue rigour steps depth rest
      scanMembers rigour steps depth false rest
    else close '}' rest

end

/-- What is left after a value that nobody wants. -/
def skipValue (cs : List Char) : Except Fault (List Char) :=
  (scanValue .lenient (2 * cs.length + 2) 0 cs).map Prod.snd

/-- A value of unknown shape: its text if it is a string. -/
def readAny (depth : Nat) (cs : List Char) : Except Fault (Option String × List Char) :=
  scanValue .strict (2 * cs.length + 2) depth cs

/-! ## 5. Values that do not fit -/

/-- The fault at a value that is not of the kind wanted. It does not fit if it is a value at all;
    of a list or an object the bracket is enough. -/
def misfit (cs : List Char) : Fault :=
  let simple (r : Except Fault (List Char)) : Fault :=
    match r with
    | .ok _ => .unfit
    | .error fault => fault
  match cs with
  | 'n' :: rest => simple (word ['u', 'l', 'l'] rest)
  | 't' :: rest => simple (word ['r', 'u', 'e'] rest)
  | 'f' :: rest => simple (word ['a', 'l', 's', 'e'] rest)
  | '-' :: rest => simple (scanNumber .strict rest)
  | '"' :: rest => simple ((readText rest).map Prod.snd)
  | '[' :: _ => .unfit
  | '{' :: _ => .unfit
  | c :: rest => if isDigit c then simple (scanNumber .strict (c :: rest)) else .malformed
  | [] => .malformed

/-- A whole text: a value with nothing but spaces behind it. -/
def whole {α : Type} (read : List Char → Except Fault (α × List Char)) (s : String) :
    Except Fault α := do
  let (value, rest) ← read s.toList
  if (skipSpaces rest).isEmpty then return value else throw .malformed

end ComponentContainer.Json
