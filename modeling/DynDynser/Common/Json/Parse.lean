import DynDynser.Common.Json.Value
/-!
# Reading JSON

A reader of RFC 8259 texts over bytes. It is lenient where a reader that
skips a value is: a string literal whose escapes or bytes are not Unicode
is passed over and kept as `Value.raw`, and so are an object with such a
key and a number that is not an integer. What it refuses is text outside
the grammar.

The recursion is on a fuel, of which the length of the text is always
enough.
-/

namespace Json

open Text

/-! ## String literals -/

/-- Four hexadecimal digits. -/
def hex4 : Bytes → Option (ℕ × Bytes)
  | a :: b :: c :: d :: rest => do
    let a ← hexVal? a.toNat
    let b ← hexVal? b.toNat
    let c ← hexVal? c.toNat
    let d ← hexVal? d.toNat
    return (((a * 16 + b) * 16 + c) * 16 + d, rest)
  | _ => none

/-- The escape of a low surrogate, as the second half of a pair. -/
def lowSurrogate : Bytes → Option (ℕ × Bytes)
  | 0x5c :: 0x75 :: rest => do
    let (m, rest) ← hex4 rest
    if 0xdc00 ≤ m ∧ m < 0xe000 then some (m, rest) else none
  | _ => none

/-- A `\u` escape after its `u`: the UTF-8 of the character it names, or
nothing where a surrogate stands alone. -/
def unicodeEscape (inp : Bytes) : Option (Option Bytes × Bytes) := do
  let (n, rest) ← hex4 inp
  if n < 0xd800 ∨ 0xe000 ≤ n then
    some (some (String.utf8EncodeChar (Char.ofNat n)), rest)
  else
    match lowSurrogate rest with
    | some (m, rest') =>
      if n < 0xdc00 then
        let c := Char.ofNat (0x10000 + (n - 0xd800) * 0x400 + (m - 0xdc00))
        some (some (String.utf8EncodeChar c), rest')
      else some (none, rest)
    | none => some (none, rest)

/-- An escape after its backslash. -/
def escape : Bytes → Option (Option Bytes × Bytes)
  | [] => none
  | b :: rest =>
    if b = 0x22 then some (some [0x22], rest)
    else if b = 0x5c then some (some [0x5c], rest)
    else if b = 0x2f then some (some [0x2f], rest)
    else if b = 0x62 then some (some [0x08], rest)
    else if b = 0x66 then some (some [0x0c], rest)
    else if b = 0x6e then some (some [0x0a], rest)
    else if b = 0x72 then some (some [0x0d], rest)
    else if b = 0x74 then some (some [0x09], rest)
    else if b = 0x75 then unicodeEscape rest
    else none

/-- The contents of a string literal, up to and with its closing
quotation mark. The contents are missing where an escape has none. -/
def literal : ℕ → Bytes → Option (Option Bytes × Bytes)
  | 0, _ => none
  | _ + 1, [] => none
  | f + 1, b :: rest =>
    if b = 0x22 then some (some [], rest)
    else if b = 0x5c then do
      let (c, rest) ← escape rest
      let (cs, rest) ← literal f rest
      return (return (← c) ++ (← cs), rest)
    else if b.toNat < 0x20 then none
    else do
      let (cs, rest) ← literal f rest
      return (cs.map (b :: ·), rest)

/-- A string literal after its opening quotation mark, as a string if it
is one. -/
def string (inp : Bytes) : Option (Option String × Bytes) := do
  let (bs, rest) ← literal (inp.length + 1) inp
  return (bs.bind ofUtf8?, rest)

/-! ## Numbers -/

/-- The rest after an optional fraction. -/
def fraction : Bytes → Option Bytes
  | 0x2e :: rest => if rest.takeWhile isDigit = [] then none else some (rest.dropWhile isDigit)
  | inp => some inp

/-- The rest after an optional sign. -/
def sign : Bytes → Bytes
  | 0x2b :: rest => rest
  | 0x2d :: rest => rest
  | inp => inp

/-- The rest after an optional exponent. -/
def exponent : Bytes → Option Bytes
  | [] => some []
  | b :: rest =>
    if b = 0x65 ∨ b = 0x45 then
      if (sign rest).takeWhile isDigit = [] then none else some ((sign rest).dropWhile isDigit)
    else some (b :: rest)

/-- A number after its sign: an integer where it has neither fraction
nor exponent and is not a negative zero. `whole` is the text from the
sign on. -/
def unsigned (neg : Bool) (whole body : Bytes) : Option (Value × Bytes) :=
  let digits := body.takeWhile isDigit
  let rest := body.dropWhile isDigit
  if digits = [] ∨ (digits.head? = some 0x30 ∧ digits ≠ [0x30]) then none
  else
    (fraction rest >>= exponent).map fun rest' =>
      let n := readDecimal digits
      if rest'.length = rest.length ∧ ¬ (neg = true ∧ n = 0) then
        (.int (if neg then -n else n), rest')
      else
        (.raw (whole.take (whole.length - rest'.length)), rest')

/-- A number. -/
def number : Bytes → Option (Value × Bytes)
  | 0x2d :: body => unsigned true (0x2d :: body) body
  | inp => unsigned false inp inp

/-! ## Values -/

/-- Drop an expected word. -/
def word (w inp : Bytes) (v : Value) : Option (Value × Bytes) :=
  if inp.take w.length = w then some (v, inp.drop w.length) else none

mutual

/-- A value, after any white space. -/
def value : ℕ → Bytes → Option (Value × Bytes)
  | 0, _ => none
  | f + 1, inp =>
    match skipWs inp with
    | [] => none
    | b :: rest =>
      if b = 0x22 then do
        let (s, rest') ← string rest
        match s with
        | some s => return (.str s, rest')
        | none => return (.raw ((b :: rest).take (rest.length + 1 - rest'.length)), rest')
      else if b = 0x5b then
        if (skipWs rest).head? = some 0x5d then some (.arr [], (skipWs rest).tail)
        else do
          let (xs, rest') ← items f rest
          return (.arr xs, rest')
      else if b = 0x7b then
        if (skipWs rest).head? = some 0x7d then some (.obj [], (skipWs rest).tail)
        else do
          let (fs, rest') ← fields f rest
          match fs.mapM fun (k, v) => k.map (·, v) with
          | some fs => return (.obj fs, rest')
          | none => return (.raw ((b :: rest).take (rest.length + 1 - rest'.length)), rest')
      else if b = 0x6e then word [0x6e, 0x75, 0x6c, 0x6c] (b :: rest) .null
      else if b = 0x74 then word [0x74, 0x72, 0x75, 0x65] (b :: rest) (.bool true)
      else if b = 0x66 then word [0x66, 0x61, 0x6c, 0x73, 0x65] (b :: rest) (.bool false)
      else number (b :: rest)

/-- The items of an array, from the first to the closing bracket. -/
def items : ℕ → Bytes → Option (List Value × Bytes)
  | 0, _ => none
  | f + 1, inp => do
    let (x, rest) ← value f inp
    match skipWs rest with
    | 0x2c :: rest => do
      let (xs, rest) ← items f rest
      return (x :: xs, rest)
    | 0x5d :: rest => return ([x], rest)
    | _ => none

/-- The fields of an object, from the first to the closing brace. A key
that is not a string is missing. -/
def fields : ℕ → Bytes → Option (List (Option String × Value) × Bytes)
  | 0, _ => none
  | f + 1, inp =>
    match skipWs inp with
    | 0x22 :: rest => do
      let (k, rest) ← string rest
      match skipWs rest with
      | 0x3a :: rest => do
        let (x, rest) ← value f rest
        match skipWs rest with
        | 0x2c :: rest => do
          let (fs, rest) ← fields f rest
          return ((k, x) :: fs, rest)
        | 0x7d :: rest => return ([(k, x)], rest)
        | _ => none
      | _ => none
    | _ => none

end

/-- **Read a whole text as one value.** -/
def parse (inp : Bytes) : Option Value := do
  let (v, rest) ← value (inp.length + 1) inp
  if skipWs rest = [] then some v else none

end Json
