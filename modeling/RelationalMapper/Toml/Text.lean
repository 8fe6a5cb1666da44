import RelationalMapper.Text.Digits

set_option autoImplicit false

namespace RelationalMapper.Toml

def isBlank (char : Char) : Bool :=
  char = ' ' || char = '\t'

def skipBlanks (chars : List Char) : List Char :=
  chars.dropWhile isBlank

-- Everything but control characters; a tab is none.
def isPlain (char : Char) : Bool :=
  char = '\t' || (0x20 ≤ char.toNat && char.toNat ≠ 0x7F)

def lineEnd? : List Char → Option (List Char)
  | '\n' :: rest => some rest
  | '\r' :: '\n' :: rest => some rest
  | _ => none

def skipComment : List Char → List Char
  | '#' :: rest => rest.dropWhile isPlain
  | chars => chars

-- The rest of a line may hold blanks and a comment.
def restOfLine? (chars : List Char) : Option (List Char) :=
  match skipComment (skipBlanks chars) with
  | [] => some []
  | chars => lineEnd? chars

def skipLines : Nat → List Char → List Char
  | 0, chars => chars
  | fuel + 1, chars =>
    let chars := skipComment (skipBlanks chars)
    match lineEnd? chars with
    | some rest => skipLines fuel rest
    | none => chars

def skipAll (chars : List Char) : List Char :=
  skipLines chars.length chars

abbrev Taken := Option (List Char × List Char)

def push (char : Char) (taken : Taken) : Taken :=
  taken.map fun (found, rest) => (char :: found, rest)

def pushCode (digits : List Char) (taken : Taken) : Taken :=
  match (Text.hexNumber? digits).bind Text.charAt? with
  | some char => push char taken
  | none => none

def simpleEscape? : Char → Option Char
  | 'b' => some '\x08'
  | 't' => some '\t'
  | 'n' => some '\n'
  | 'f' => some '\x0c'
  | 'r' => some '\r'
  | 'e' => some '\x1b'
  | '"' => some '"'
  | '\\' => some '\\'
  | _ => none

def basicBody : List Char → Taken
  | [] => none
  | '"' :: rest => some ([], rest)
  | '\\' :: 'x' :: a :: b :: rest => pushCode [a, b] (basicBody rest)
  | '\\' :: 'u' :: a :: b :: c :: d :: rest => pushCode [a, b, c, d] (basicBody rest)
  | '\\' :: 'U' :: a :: b :: c :: d :: e :: f :: g :: h :: rest =>
    pushCode [a, b, c, d, e, f, g, h] (basicBody rest)
  | '\\' :: char :: rest =>
    match simpleEscape? char with
    | some meant => push meant (basicBody rest)
    | none => none
  | char :: rest => if isPlain char ∧ char ≠ '\\' then push char (basicBody rest) else none

def literalBody : List Char → Taken
  | [] => none
  | '\'' :: rest => some ([], rest)
  | char :: rest => if isPlain char then push char (literalBody rest) else none

-- Up to two quotes may stand right before the three that close.
def closing? (quote : Char) (chars : List Char) : Taken :=
  let quotes := (chars.takeWhile (· = quote)).length
  if quotes < 3 then none
  else
    -- The last three close, and what is beyond five is for the rest of the line to refuse.
    let inside := min (quotes - 3) 2
    some (List.replicate inside quote, chars.drop (inside + 3))

def blankToLineEnd (chars : List Char) : Bool :=
  (lineEnd? (skipBlanks chars)).isSome

def longBasicBody : Bool → List Char → Taken
  | _, [] => none
  | trimming, '\r' :: '\n' :: rest =>
    if trimming then longBasicBody true rest
    else push '\r' (push '\n' (longBasicBody false rest))
  | trimming, '\n' :: rest =>
    if trimming then longBasicBody true rest else push '\n' (longBasicBody false rest)
  | _, '\\' :: 'x' :: a :: b :: rest => pushCode [a, b] (longBasicBody false rest)
  | _, '\\' :: 'u' :: a :: b :: c :: d :: rest =>
    pushCode [a, b, c, d] (longBasicBody false rest)
  | _, '\\' :: 'U' :: a :: b :: c :: d :: e :: f :: g :: h :: rest =>
    pushCode [a, b, c, d, e, f, g, h] (longBasicBody false rest)
  | _, '\\' :: char :: rest =>
    match simpleEscape? char with
    | some meant => push meant (longBasicBody false rest)
    | none =>
      if blankToLineEnd (char :: rest) then longBasicBody true (char :: rest) else none
  | trimming, char :: rest =>
    if trimming ∧ isBlank char then longBasicBody true rest
    else
      match closing? '"' (char :: rest) with
      | some taken => some taken
      | none =>
        if isPlain char ∧ char ≠ '\\' then push char (longBasicBody false rest) else none

def longLiteralBody : List Char → Taken
  | [] => none
  | '\r' :: '\n' :: rest => push '\r' (push '\n' (longLiteralBody rest))
  | '\n' :: rest => push '\n' (longLiteralBody rest)
  | char :: rest =>
    match closing? '\'' (char :: rest) with
    | some taken => some taken
    | none => if isPlain char then push char (longLiteralBody rest) else none

-- A line end right after the opening quotes is not part of the string.
def skipFirstLineEnd (chars : List Char) : List Char :=
  (lineEnd? chars).getD chars

def asText (taken : Taken) : Option (String × List Char) :=
  taken.map fun (found, rest) => (String.ofList found, rest)

-- A string on one line, as keys may be.
def shortString? : List Char → Option (String × List Char)
  | '"' :: rest => asText (basicBody rest)
  | '\'' :: rest => asText (literalBody rest)
  | _ => none

def string? : List Char → Option (String × List Char)
  | '"' :: '"' :: '"' :: rest => asText (longBasicBody false (skipFirstLineEnd rest))
  | '\'' :: '\'' :: '\'' :: rest => asText (longLiteralBody (skipFirstLineEnd rest))
  | chars => shortString? chars

end RelationalMapper.Toml
