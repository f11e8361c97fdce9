import RecordLogic.Toml.Scalar

namespace RecordLogic.Toml

def isBlank (c : Char) : Bool := c = ' ' || c = '\t'

def skipBlanks (cs : List Char) : List Char := cs.dropWhile isBlank

/-- The characters of a line: all but control characters, and tabs. -/
def isPlain (c : Char) : Bool :=
  c = '\t' || 32 ≤ c.toNat && c.toNat ≠ 127

/-- A comment, if there is one. -/
def skipComment (cs : List Char) : List Char :=
  match cs with
  | '#' :: cs => cs.dropWhile isPlain
  | _ => cs

/-- The end of a line, after blanks and a comment. -/
def endLine? (cs : List Char) : Option (List Char) :=
  match skipComment (skipBlanks cs) with
  | [] => some []
  | '\n' :: cs | '\r' :: '\n' :: cs => some cs
  | _ => none

/-- Blanks, ends of lines and comments; every step uses one unit of `fuel`. -/
def skipFiller : Nat → List Char → List Char
  | 0, cs => cs
  | fuel + 1, cs =>
    match skipComment (skipBlanks cs) with
    | '\n' :: cs | '\r' :: '\n' :: cs => skipFiller fuel cs
    | cs => cs

/-- The character of a number, which must not be half of a pair. -/
def charOf? (cs : List Char) : Option Char := do
  let n ← Number.ofBaseDigits? 16 cs
  if n.isValidChar then return Char.ofNat n else none

/-- What follows a backslash: the characters meant, last first, and the rest. In a text of several
lines the end of a line vanishes with the blanks around it. -/
def escape? (multi : Bool) : List Char → Option (List Char × List Char)
  | 'b' :: cs => some (['\x08'], cs)
  | 't' :: cs => some (['\t'], cs)
  | 'n' :: cs => some (['\n'], cs)
  | 'f' :: cs => some (['\x0c'], cs)
  | 'r' :: cs => some (['\r'], cs)
  | '"' :: cs => some (['"'], cs)
  | '\\' :: cs => some (['\\'], cs)
  | 'u' :: cs =>
    if cs.length < 4 then none else (charOf? (cs.take 4)).map fun c => ([c], cs.drop 4)
  | 'U' :: cs =>
    if cs.length < 8 then none else (charOf? (cs.take 8)).map fun c => ([c], cs.drop 8)
  | cs =>
    if multi then
      match skipBlanks cs with
      | '\n' :: cs | '\r' :: '\n' :: cs =>
        some ([], cs.dropWhile fun c => isBlank c || c = '\n' || c = '\r')
      | _ => none
    else none

/-- The inside of a quoted text up to its end; `acc` holds its characters, last first. Only double
quotes have escapes. Three quotes end a text of several lines, and up to two more before them belong
to it. -/
def body? (quote : Char) (multi : Bool) (acc : List Char) : Nat → List Char →
    Option (String × List Char)
  | 0, _ | _, [] => none
  | fuel + 1, c :: cs =>
    if c = quote then
      if multi then
        let n := ((c :: cs).takeWhile (· = quote)).length
        if n < 3 then
          body? quote multi (List.replicate n quote ++ acc) fuel ((c :: cs).drop n)
        else
          let m := min n 5
          some (String.ofList (List.replicate (m - 3) quote ++ acc).reverse, (c :: cs).drop m)
      else some (String.ofList acc.reverse, cs)
    else if c = '\\' && quote = '"' then
      match escape? multi cs with
      | some (chars, cs) => body? quote multi (chars ++ acc) fuel cs
      | none => none
    else if c = '\n' then if multi then body? quote multi (c :: acc) fuel cs else none
    else if c = '\r' then
      match cs with
      | '\n' :: cs => if multi then body? quote multi ('\n' :: acc) fuel cs else none
      | _ => none
    else if isPlain c then body? quote multi (c :: acc) fuel cs
    else none

/-- A text on one line after its opening quote. -/
def line? (quote : Char) (cs : List Char) : Option (String × List Char) :=
  body? quote false [] (cs.length + 1) cs

/-- A text after its opening quote. An end of line right after three quotes does not count. -/
def quoted? (quote : Char) (cs : List Char) : Option (String × List Char) :=
  match cs with
  | c :: d :: rest =>
    if c = quote && d = quote then
      let rest := match rest with
        | '\n' :: rest | '\r' :: '\n' :: rest => rest
        | _ => rest
      body? quote true [] (rest.length + 1) rest
    else line? quote cs
  | _ => line? quote cs

def isBareKey (c : Char) : Bool :=
  c.isAlphanum || c = '_' || c = '-'

/-- One part of a key. -/
def keyPart? : List Char → Option (String × List Char)
  | '"' :: cs => line? '"' cs
  | '\'' :: cs => line? '\'' cs
  | cs =>
    let k := cs.takeWhile isBareKey
    if k.isEmpty then none else some (String.ofList k, cs.dropWhile isBareKey)

/-- The parts of a key, joined by points: all but the last, and the last. -/
def key? : Nat → List Char → Option ((List String × String) × List Char)
  | 0, _ => none
  | fuel + 1, cs => do
    let (k, cs) ← keyPart? cs
    match skipBlanks cs with
    | '.' :: cs => do
      let ((path, last), cs) ← key? fuel (skipBlanks cs)
      return ((k :: path, last), cs)
    | _ => return (([], k), cs)

/-- The characters of a value without quotes or brackets. -/
def isScalar (c : Char) : Bool :=
  c.isAlphanum || c = '_' || c = '-' || c = '+' || c = '.' || c = ':'

/-- The longest run of such characters; a blank may part a date from its time. -/
def takeScalar (cs : List Char) : List Char × List Char :=
  let first := cs.takeWhile isScalar
  let rest := cs.dropWhile isScalar
  match rest with
  | ' ' :: c :: more =>
    if first.length = 10 && Number.isDigit c && (Time.datePrefix? first).isSome then
      (first ++ ' ' :: (c :: more).takeWhile isScalar, (c :: more).dropWhile isScalar)
    else (first, rest)
  | _ => (first, rest)

mutual

def value? : Nat → List Char → Option (Toml × List Char)
  | 0, _ => none
  | fuel + 1, cs =>
    match cs with
    | '"' :: cs => (quoted? '"' cs).map fun p => (text p.1, p.2)
    | '\'' :: cs => (quoted? '\'' cs).map fun p => (text p.1, p.2)
    | '[' :: cs => (items? fuel cs).map fun p => (array p.1, p.2)
    | '\x7b' :: cs =>
      match skipBlanks cs with
      | '\x7d' :: cs => some (table .inline [], cs)
      | cs => (pairs? [] fuel cs).map fun p => (table .inline p.1, p.2)
    | _ =>
      let (s, cs) := takeScalar cs
      (scalar? s).map fun v => (v, cs)

/-- Items up to the closing bracket; a comma may follow the last one. -/
def items? : Nat → List Char → Option (List Toml × List Char)
  | 0, _ => none
  | fuel + 1, cs =>
    match skipFiller cs.length cs with
    | ']' :: cs => some ([], cs)
    | cs => do
      let (v, cs) ← value? fuel cs
      match skipFiller cs.length cs with
      | ',' :: cs => do
        let (vs, cs) ← items? fuel cs
        return (v :: vs, cs)
      | ']' :: cs => return ([v], cs)
      | _ => none

/-- Entries up to the closing brace, on one line and without a last comma. -/
def pairs? (entries : List (String × Toml)) : Nat → List Char →
    Option (List (String × Toml) × List Char)
  | 0, _ => none
  | fuel + 1, cs => do
    let ((path, last), cs) ← key? cs.length cs
    let '=' :: cs := skipBlanks cs | none
    let (v, cs) ← value? fuel (skipBlanks cs)
    let entries ← addEntry path last v .inline entries
    match skipBlanks cs with
    | ',' :: cs => pairs? entries fuel (skipBlanks cs)
    | '\x7d' :: cs => return (entries, cs)
    | _ => none

end

/-- The part of a document that has been read: its entries and the header in force. -/
structure Draft where
  entries : List (String × Toml) := []
  path : List String := []

/-- Adds an entry under the header in force. -/
def Draft.add (d : Draft) (path : List String) (key : String) (v : Toml) : Option Draft :=
  (within false (addEntry path key v) d.path .header d.entries).map fun entries =>
    { d with entries }

/-- One line, or an entry whose value has several. -/
def Draft.line? (d : Draft) (cs : List Char) : Option (Draft × List Char) :=
  match skipBlanks cs with
  | '[' :: '[' :: cs => do
    let cs := skipBlanks cs
    let ((path, last), cs) ← key? cs.length cs
    let ']' :: ']' :: cs := skipBlanks cs | none
    let entries ← openRepeated path last d.entries
    return (⟨entries, path ++ [last]⟩, ← endLine? cs)
  | '[' :: cs => do
    let cs := skipBlanks cs
    let ((path, last), cs) ← key? cs.length cs
    let ']' :: cs := skipBlanks cs | none
    let entries ← openTable path last d.entries
    return (⟨entries, path ++ [last]⟩, ← endLine? cs)
  | cs =>
    match endLine? cs with
    | some cs => some (d, cs)
    | none => do
      let ((path, last), cs) ← key? cs.length cs
      let '=' :: cs := skipBlanks cs | none
      let (v, cs) ← value? (cs.length + 1) (skipBlanks cs)
      return (← d.add path last v, ← endLine? cs)

/-- Lines to the end of the text; every line uses one unit of `fuel`. -/
def Draft.lines? (d : Draft) : Nat → List Char → Option Draft
  | _, [] => some d
  | 0, _ => none
  | fuel + 1, cs => do
    let (d, cs) ← d.line? cs
    d.lines? fuel cs

/-- Reads a document. A mark of byte order may stand before it. -/
def read? (s : String) : Option Toml :=
  let cs := match s.toList with
    | '\ufeff' :: cs => cs
    | cs => cs
  (Draft.lines? {} cs.length cs).map fun d => table .header d.entries

end RecordLogic.Toml
