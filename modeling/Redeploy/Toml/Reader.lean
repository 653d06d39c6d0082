/-
Reading TOML documents. Each reader takes the characters from where it stands and returns what it read with the
characters that are left, or nothing if the document is ill formed there. How deep values may nest, and how many
parts a key may have, is limited.
-/
import Redeploy.Toml.Moment
import Redeploy.Toml.Table

namespace Redeploy.Toml

/-- how many arrays and tables in line may be open at once -/
def maxDepth : Nat := 80

/-- how many parts a key may have -/
def maxParts : Nat := 80

def isBlank (c : Char) : Bool := c == ' ' || c == '\t'

def skipBlank (s : List Char) : List Char := s.dropWhile isBlank

/-- the character may stand in a comment or string as it is -/
def isPlain (c : Char) : Bool := c == '\t' || (decide (' ' ≤ c) && c != '\x7f')

/-- a line end -/
def newline? : List Char → Option (List Char)
  | '\n' :: r => some r
  | '\r' :: '\n' :: r => some r
  | _ => none

/-- past blanks and a comment, if one follows -/
def skipComment (s : List Char) : List Char :=
  match skipBlank s with
  | '#' :: r => r.dropWhile isPlain
  | r => r

/-- past blanks, comments and line ends; `comment`: inside a comment, which ends with its line -/
def skipFrom : (comment : Bool) → List Char → List Char
  | _, [] => []
  | _, '\n' :: r => skipFrom false r
  | _, '\r' :: '\n' :: r => skipFrom false r
  | true, c :: r => if isPlain c then skipFrom true r else c :: r
  | false, c :: r => if isBlank c then skipFrom false r else if c = '#' then skipFrom true r else c :: r

def skip (s : List Char) : List Char := skipFrom false s

def hexDigit? (c : Char) : Option Nat :=
  if c.isDigit then some (c.toNat - 48)
  else if 'a' ≤ c ∧ c ≤ 'f' then some (c.toNat - 87)
  else if 'A' ≤ c ∧ c ≤ 'F' then some (c.toNat - 55)
  else none

/-- the character whose code point is given by exactly `n` hexadecimal digits -/
def codePoint? (n : Nat) (s : List Char) : Option (Char × List Char) := do
  let ds ← (s.take n).mapM hexDigit?
  let v := ds.foldl (fun v d => 16 * v + d) 0
  if ds.length = n ∧ (v < 0xd800 ∨ 0xdfff < v ∧ v < 0x110000) then pure (Char.ofNat v, s.drop n) else none

/-- an escape, after its backslash -/
def escape? : List Char → Option (Char × List Char)
  | 'b' :: r => some ('\x08', r)
  | 't' :: r => some ('\t', r)
  | 'n' :: r => some ('\n', r)
  | 'f' :: r => some ('\x0c', r)
  | 'r' :: r => some ('\r', r)
  | 'e' :: r => some ('\x1b', r)
  | '"' :: r => some ('"', r)
  | '\\' :: r => some ('\\', r)
  | 'x' :: r => codePoint? 2 r
  | 'u' :: r => codePoint? 4 r
  | 'U' :: r => codePoint? 8 r
  | _ => none

/-- the rest of a string with escapes, on one line -/
def basicRest? : Nat → List Char → List Char → Option (String × List Char)
  | 0, _, _ => none
  | _, _, [] => none
  | fuel + 1, acc, c :: r =>
    if c = '"' then some (String.ofList acc.reverse, r)
    else if c = '\\' then
      match escape? r with
      | some (d, r') => basicRest? fuel (d :: acc) r'
      | none => none
    else if isPlain c then basicRest? fuel (c :: acc) r
    else none

/-- the rest of a string without escapes, on one line -/
def literalRest? (s : List Char) : Option (String × List Char) :=
  let body := s.takeWhile fun c => c != '\'' && isPlain c
  match s.drop body.length with
  | '\'' :: r => some (String.ofList body, r)
  | _ => none

/-- past the blanks and line ends that come first -/
def skipMargin : List Char → List Char
  | [] => []
  | '\n' :: r => skipMargin r
  | '\r' :: '\n' :: r => skipMargin r
  | c :: r => if isBlank c then skipMargin r else c :: r

/-- past the rest of a line that a backslash ended and the margin of the next; nothing if the line goes on -/
def joinLines? (s : List Char) : Option (List Char) := (newline? (skipBlank s)).map skipMargin

/-- how many quotes end the text here: the closing three with up to two that belong to the text -/
def closing (q : Char) (s : List Char) : Option (Nat × List Char) :=
  let n := (s.takeWhile (· == q)).length
  if 3 ≤ n then
    let extra := min (n - 3) 2
    some (extra, s.drop (3 + extra))
  else none

/-- the rest of a string over several lines; `escapes` are understood or not -/
def multilineRest? (q : Char) (escapes : Bool) : Nat → List Char → List Char → Option (String × List Char)
  | 0, _, _ => none
  | fuel + 1, acc, s =>
    match closing q s with
    | some (extra, r) => some (String.ofList (acc.reverse ++ List.replicate extra q), r)
    | none =>
      match s with
      | [] => none
      | '\r' :: '\n' :: r => multilineRest? q escapes fuel ('\n' :: '\r' :: acc) r
      | c :: r =>
        if c = '\\' ∧ escapes then
          match joinLines? r with
          | some r' => multilineRest? q escapes fuel acc r'
          | none =>
            match escape? r with
            | some (d, r') => multilineRest? q escapes fuel (d :: acc) r'
            | none => none
        else if c = '\n' ∨ isPlain c then multilineRest? q escapes fuel (c :: acc) r
        else none

/-- a string over several lines, after its opening quotes; a line end right after them does not count -/
def multiline? (q : Char) (escapes : Bool) (s : List Char) : Option (String × List Char) :=
  multilineRest? q escapes (s.length + 1) [] ((newline? s).getD s)

def isBare (c : Char) : Bool := c.isAlphanum || c == '_' || c == '-'

/-- one part of a key -/
def simpleKey? (s : List Char) : Option (String × List Char) :=
  match s with
  | '"' :: r => basicRest? (r.length + 1) [] r
  | '\'' :: r => literalRest? r
  | _ =>
    let k := s.takeWhile isBare
    if k.isEmpty then none else some (String.ofList k, s.dropWhile isBare)

/-- parts of a key, no more than there is room for, with dots between them and blanks around -/
def parts? : Nat → List Char → Option (List String × List Char)
  | 0, _ => none
  | room + 1, s => do
    let (k, r) ← simpleKey? (skipBlank s)
    match skipBlank r with
    | '.' :: r' =>
      let (ks, r'') ← parts? room r'
      pure (k :: ks, r'')
    | r' => pure ([k], r')

def key? (s : List Char) : Option (List String × List Char) := parts? maxParts s

/-- digits with single underscores between them; the digits alone -/
def grouped? (isDigit : Char → Bool) : List Char → Option (List Char)
  | [] => none
  | [c] => if isDigit c then some [c] else none
  | c :: '_' :: r => if isDigit c then (grouped? isDigit r).map (c :: ·) else none
  | c :: r => if isDigit c then (grouped? isDigit r).map (c :: ·) else none

def baseNumber (base : Nat) (ds : List Char) : Nat :=
  ds.foldl (fun n c => base * n + (hexDigit? c).getD 0) 0

/-- a whole number without sign: decimal without zeros in front, or with the letter of another base -/
def whole? (signed : Bool) (s : List Char) : Option Nat :=
  match s with
  | '0' :: 'x' :: r => if signed then none else (grouped? (fun c => (hexDigit? c).isSome) r).map (baseNumber 16)
  | '0' :: 'o' :: r => if signed then none else (grouped? (fun c => '0' ≤ c && c ≤ '7') r).map (baseNumber 8)
  | '0' :: 'b' :: r => if signed then none else (grouped? (fun c => c == '0' || c == '1') r).map (baseNumber 2)
  | _ => do
    let ds ← grouped? Char.isDigit s
    if ds.length > 1 && ds.head? == some '0' then none else pure (ofDigits ds)

/-- digits and underscores at the start of the text, with underscores only between digits -/
def part? (s : List Char) : Option (List Char × List Char) :=
  let isPart (c : Char) : Bool := c.isDigit || c == '_'
  (grouped? Char.isDigit (s.takeWhile isPart)).map fun ds => (ds, s.dropWhile isPart)

/-- a number with fraction, exponent or both, without its sign -/
def decimal? (negative : Bool) (s : List Char) : Option Decimal := do
  let (w, r) ← part? s
  if w.length > 1 && w.head? == some '0' then none
  let (f, r) ← match r with
    | '.' :: r' => part? r'
    | _ => some ([], r)
  let e ← match r with
    | [] => some (0 : Int)
    | c :: r' =>
      if c = 'e' ∨ c = 'E' then
        let (sign, r') := match r' with
          | '-' :: r'' => ((-1 : Int), r'')
          | '+' :: r'' => (1, r'')
          | _ => (1, r')
        (grouped? Char.isDigit r').map fun ds => sign * ofDigits ds
      else none
  pure (.finite negative (ofDigits (w ++ f)) (e - f.length))

/-- a number, flag, date or time that makes up the whole text -/
def scalar? (s : List Char) : Option Setting :=
  match String.ofList s with
  | "true" => some (.flag true)
  | "false" => some (.flag false)
  | "inf" | "+inf" => some (.float (.infinite false))
  | "-inf" => some (.float (.infinite true))
  | "nan" | "+nan" | "-nan" => some (.float .nan)
  | _ =>
    let (negative, signed, body) := match s with
      | '-' :: r => (true, true, r)
      | '+' :: r => (false, true, r)
      | _ => (false, false, s)
    match whole? signed body with
    | some n =>
      let n : Int := if negative then -(n : Int) else n
      if Int64.minValue.toInt ≤ n ∧ n ≤ Int64.maxValue.toInt then some (.int n) else none
    | none =>
      match decimal? negative body with
      | some d =>
        match Binary64.ofDecimal d with
        | .infinite _ => none
        | x => some (.float x)
      | none => none

/-- a scalar at the start of the text -/
def scalarStart? (s : List Char) : Option (Setting × List Char) :=
  match Moment.read? s with
  | some (m, r) => some (.text (String.ofList m), r)
  | none =>
    let isPart (c : Char) : Bool := c.isAlphanum || c == '_' || c == '-' || c == '+' || c == '.'
    (scalar? (s.takeWhile isPart)).map fun v => (v, s.dropWhile isPart)

mutual

/-- a value; `room` bounds the arrays and tables that may still be opened in it -/
def value? (room : Nat) : Nat → List Char → Option (Setting × List Char)
  | 0, _ => none
  | fuel + 1, s =>
    match s with
    | '"' :: '"' :: '"' :: r => (multiline? '"' true r).map fun (t, r) => (.text t, r)
    | '"' :: r => (basicRest? (r.length + 1) [] r).map fun (t, r) => (.text t, r)
    | '\'' :: '\'' :: '\'' :: r => (multiline? '\'' false r).map fun (t, r) => (.text t, r)
    | '\'' :: r => (literalRest? r).map fun (t, r) => (.text t, r)
    | '[' :: r => if room = 0 then none else items? (room - 1) fuel [] r
    | '\x7b' :: r => if room = 0 then none else members? (room - 1) fuel [] r
    | _ => scalarStart? s

/-- the items of an array up to its closing bracket; a comma may follow the last one -/
def items? (room : Nat) : Nat → List Setting → List Char → Option (Setting × List Char)
  | 0, _, _ => none
  | fuel + 1, acc, s =>
    match skip s with
    | ']' :: r => some (.list acc.reverse, r)
    | s =>
      match value? room fuel s with
      | none => none
      | some (v, r) =>
        match skip r with
        | ',' :: r' => items? room fuel (v :: acc) r'
        | ']' :: r' => some (.list (v :: acc).reverse, r')
        | _ => none

/-- the entries of a table in line up to its closing brace; a comma may follow the last one, and lines may end
anywhere but in a key -/
def members? (room : Nat) : Nat → Entries → List Char → Option (Setting × List Char)
  | 0, _, _ => none
  | fuel + 1, es, s =>
    match skip s with
    | '\x7d' :: r => (Entries.setting? es).map fun t => (t, r)
    | s =>
      match key? s with
      | none => none
      | some (ks, r) =>
        match skip r with
        | '=' :: r =>
          match value? room fuel (skip r) with
          | none => none
          | some (v, r) =>
            match insert ks.dropLast (ks.getLastD "") v es with
            | none => none
            | some es =>
              match skip r with
              | ',' :: r' => members? room fuel es r'
              | '\x7d' :: r' => (Entries.setting? es).map fun t => (t, r')
              | _ => none
        | _ => none

end

/-- the end of a statement: a comment perhaps, and the end of the line or document -/
def lineEnd? (s : List Char) : Option (List Char) :=
  match skipComment s with
  | [] => some []
  | r => newline? r

/-- the statements that are left; `here` is the path of the latest header -/
def statements? : Nat → List String → Entries → List Char → Option Entries
  | 0, _, _, _ => none
  | fuel + 1, here, es, s =>
    match skip s with
    | [] => some es
    | '[' :: '[' :: r => do
      let (ks, r) ← key? r
      match r with
      | ']' :: ']' :: r =>
        let es ← openElement ks.dropLast (ks.getLastD "") es
        statements? fuel ks es (← lineEnd? r)
      | _ => none
    | '[' :: r => do
      let (ks, r) ← key? r
      match r with
      | ']' :: r =>
        let es ← openTable ks.dropLast (ks.getLastD "") es
        statements? fuel ks es (← lineEnd? r)
      | _ => none
    | s => do
      let (ks, r) ← key? s
      match r with
      | '=' :: r =>
        let (v, r) ← value? maxDepth (r.length + 1) (skipBlank r)
        let es ← change false (insert ks.dropLast (ks.getLastD "") v) here es
        statements? fuel here es (← lineEnd? r)
      | _ => none

/-- the settings of a document; a byte order mark of its own may precede them -/
def read (text : String) : Option (List (String × Setting)) :=
  let s := match text.toList with
    | '\ufeff' :: r => r
    | r => r
  match (statements? (s.length + 1) [] [] s).bind Entries.setting? with
  | some (.table es) => some es
  | _ => none

end Redeploy.Toml
