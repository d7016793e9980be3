import SymbolUsage.Json.Reader

/-! Blanks, comments, texts and keys of TOML. -/
namespace SymbolUsage.Toml

def isBlank (c : Char) : Bool := c = ' ' || c = '\t'

def skipBlanks (cs : List Char) : List Char := cs.dropWhile isBlank

/-- All characters but control characters; a tab is not counted as one. -/
def isPlain (c : Char) : Bool := c = '\t' || (0x20 ≤ c.toNat && c.toNat ≠ 0x7f)

def newline? : List Char → Option (List Char)
  | '\n' :: rest => some rest
  | '\r' :: '\n' :: rest => some rest
  | _ => none

def skipComment (cs : List Char) : List Char :=
  match cs with
  | '#' :: rest => rest.dropWhile isPlain
  | cs => cs

/-- The rest of a line that has nothing more to say, and its end. -/
def lineEnd (cs : List Char) : Option (List Char) :=
  match skipComment (skipBlanks cs) with
  | [] => some []
  | cs => newline? cs

/-- Skips blanks, newlines and comments; none if a comment or a newline is ill-formed. The flag
tells whether this is inside a comment. -/
def skipTrivia : Bool → List Char → Option (List Char)
  | _, [] => some []
  | _, '\n' :: rest => skipTrivia false rest
  | _, '\r' :: '\n' :: rest => skipTrivia false rest
  | true, c :: rest => if isPlain c then skipTrivia true rest else none
  | false, c :: rest =>
    if isBlank c then skipTrivia false rest
    else if c = '#' then skipTrivia true rest
    else some (c :: rest)

def shortEscape : Char → Option Char
  | 'b' => some '\x08'
  | 't' => some '\t'
  | 'n' => some '\n'
  | 'f' => some '\x0c'
  | 'r' => some '\r'
  | '\x22' => some '\x22'
  | '\\' => some '\\'
  | _ => none

def scalar (digits : List Char) : Option Char := do
  let n ← digits.foldlM (fun n c => do some (n * 16 + (← Json.hexDigit c))) 0
  if n < 0xd800 ∨ (0xe000 ≤ n ∧ n < 0x110000) then some (Char.ofNat n) else none

/-- A text in double quotes, after the opening one. -/
def basicText : List Char → Option (List Char × List Char)
  | [] => none
  | '\x22' :: rest => some ([], rest)
  | '\\' :: 'u' :: a :: b :: c :: d :: rest => do
    let x ← scalar [a, b, c, d]
    let (text, rest) ← basicText rest
    some (x :: text, rest)
  | '\\' :: 'U' :: a :: b :: c :: d :: e :: f :: g :: h :: rest => do
    let x ← scalar [a, b, c, d, e, f, g, h]
    let (text, rest) ← basicText rest
    some (x :: text, rest)
  | '\\' :: c :: rest => do
    let x ← shortEscape c
    let (text, rest) ← basicText rest
    some (x :: text, rest)
  | c :: rest =>
    if isPlain c ∧ c ≠ '\\' then do
      let (text, rest) ← basicText rest
      some (c :: text, rest)
    else none

/-- A text in single quotes, after the opening one. -/
def literalText : List Char → Option (List Char × List Char)
  | [] => none
  | '\x27' :: rest => some ([], rest)
  | c :: rest =>
    if isPlain c then do
      let (text, rest) ← literalText rest
      some (c :: text, rest)
    else none

def endsLine (cs : List Char) : Bool := (newline? (skipBlanks cs)).isSome

/-- A text in three double quotes, after the opening ones. Up to two quotes may stand before the
closing ones. A backslash at the end of a line takes all blanks and newlines after it along; the
flag tells whether this is after one. -/
def longBasicText : Bool → List Char → Option (List Char × List Char)
  | _, [] => none
  | _, '\x22' :: '\x22' :: '\x22' :: '\x22' :: '\x22' :: rest => some (['\x22', '\x22'], rest)
  | _, '\x22' :: '\x22' :: '\x22' :: '\x22' :: rest => some (['\x22'], rest)
  | _, '\x22' :: '\x22' :: '\x22' :: rest => some ([], rest)
  | _, '\\' :: 'u' :: a :: b :: c :: d :: rest => do
    let x ← scalar [a, b, c, d]
    let (text, rest) ← longBasicText false rest
    some (x :: text, rest)
  | _, '\\' :: 'U' :: a :: b :: c :: d :: e :: f :: g :: h :: rest => do
    let x ← scalar [a, b, c, d, e, f, g, h]
    let (text, rest) ← longBasicText false rest
    some (x :: text, rest)
  | trimming, '\r' :: '\n' :: rest => do
    let (text, rest) ← longBasicText trimming rest
    some (if trimming then text else '\n' :: text, rest)
  | trimming, c :: rest =>
    if c = '\\' ∧ endsLine rest then longBasicText true rest
    else if trimming ∧ (isBlank c ∨ c = '\n') then longBasicText true rest
    else if c = '\\' then
      match rest with
      | e :: rest => do
        let x ← shortEscape e
        let (text, rest) ← longBasicText false rest
        some (x :: text, rest)
      | [] => none
    else if isPlain c ∨ c = '\n' then do
      let (text, rest) ← longBasicText false rest
      some (c :: text, rest)
    else none

/-- A text in three single quotes, after the opening ones. -/
def longLiteralText : List Char → Option (List Char × List Char)
  | [] => none
  | '\x27' :: '\x27' :: '\x27' :: '\x27' :: '\x27' :: rest => some (['\x27', '\x27'], rest)
  | '\x27' :: '\x27' :: '\x27' :: '\x27' :: rest => some (['\x27'], rest)
  | '\x27' :: '\x27' :: '\x27' :: rest => some ([], rest)
  | '\r' :: '\n' :: rest => do
    let (text, rest) ← longLiteralText rest
    some ('\n' :: text, rest)
  | c :: rest =>
    if isPlain c ∨ c = '\n' then do
      let (text, rest) ← longLiteralText rest
      some (c :: text, rest)
    else none

/-- A newline right after the opening quotes of a long text does not count. -/
def dropNewline (cs : List Char) : List Char := (newline? cs).getD cs

def isBareKey (c : Char) : Bool :=
  ('a' ≤ c && c ≤ 'z') || ('A' ≤ c && c ≤ 'Z') || Json.isDigit c || c = '_' || c = '-'

def simpleKey (cs : List Char) : Option (String × List Char) :=
  match cs with
  | '\x22' :: rest => do
    let (text, rest) ← basicText rest
    some (String.ofList text, rest)
  | '\x27' :: rest => do
    let (text, rest) ← literalText rest
    some (String.ofList text, rest)
  | cs =>
    match cs.takeWhile isBareKey with
    | [] => none
    | text => some (String.ofList text, cs.dropWhile isBareKey)

/-- A key of at most so many parts: the way to its table, and the key in it. -/
def dottedKey : Nat → List Char → Option ((List String × String) × List Char)
  | 0, _ => none
  | n + 1, cs => do
    let (part, rest) ← simpleKey (skipBlanks cs)
    match skipBlanks rest with
    | '.' :: rest =>
      let ((path, key), rest) ← dottedKey n rest
      some ((part :: path, key), rest)
    | rest => some (([], part), rest)

end SymbolUsage.Toml
