import GovernanceCache.Document

/-!
# Documents as text

How a document is written down in JSON, and read again. Members of an object are written in the
order of their names, and may be read in any order. What is nested too deep is not read.
-/

namespace GovernanceCache.Document

/-! ## Writing -/

/-- The letter that stands for a control character behind a backslash. -/
def shortEscape? : Char → Option Char
  | '\x08' => some 'b'
  | '\t' => some 't'
  | '\n' => some 'n'
  | '\x0c' => some 'f'
  | '\x0d' => some 'r'
  | _ => none

/-- A character inside quotes. -/
def escaped (c : Char) : List Char :=
  if c == '"' || c == '\\' then ['\\', c]
  else if let some letter := shortEscape? c then ['\\', letter]
  else if c.toNat < 0x20 then
    let digits := Nat.toDigits 16 c.toNat
    '\\' :: 'u' :: List.replicate (4 - digits.length) '0' ++ digits
  else [c]

/-- A text in quotes. -/
def quotedText (s : String) : String :=
  "\"" ++ String.ofList (s.toList.flatMap escaped) ++ "\""

def numberText : Number → String
  | .integer n => toString n
  | .double bits => Number.doubleText bits

mutual

/-- The text of a document. -/
def toText : Document → String
  | .null => "null"
  | .boolean b => if b then "true" else "false"
  | .number n => numberText n
  | .text s => quotedText s
  | .list items => "[" ++ ",".intercalate (itemTexts items) ++ "]"
  | .object members => "\x7b" ++ ",".intercalate (memberTexts members) ++ "\x7d"

def itemTexts : List Document → List String
  | [] => []
  | d :: rest => d.toText :: itemTexts rest

def memberTexts : List (String × Document) → List String
  | [] => []
  | (name, d) :: rest => (quotedText name ++ ":" ++ d.toText) :: memberTexts rest

end

/-! ## Reading -/

/-- The text without the blanks in front of it. -/
def skipBlanks (cs : List Char) : List Char :=
  cs.dropWhile fun c => c == ' ' || c == '\n' || c == '\t' || c == '\x0d'

/-- The value of a hexadecimal digit. -/
def hexValue? (c : Char) : Option Nat :=
  if c.isDigit then some (c.toNat - 48)
  else if 'a' ≤ c ∧ c ≤ 'f' then some (c.toNat - 87)
  else if 'A' ≤ c ∧ c ≤ 'F' then some (c.toNat - 55)
  else none

/-- The number of four hexadecimal digits, and the rest. -/
def readHex4 : List Char → Option (Nat × List Char)
  | a :: b :: c :: d :: rest => do
    let n := (← hexValue? a) * 4096 + (← hexValue? b) * 256 + (← hexValue? c) * 16 + (← hexValue? d)
    return (n, rest)
  | _ => none

/-- The character of a code point given as one or two sixteen-bit units, and the rest. -/
def readUnits (cs : List Char) : Option (Char × List Char) := do
  let (high, rest) ← readHex4 cs
  if 0xD800 ≤ high ∧ high ≤ 0xDBFF then
    let '\\' :: 'u' :: rest := rest | none
    let (low, rest) ← readHex4 rest
    if 0xDC00 ≤ low ∧ low ≤ 0xDFFF then
      return (Char.ofNat (0x10000 + (high - 0xD800) * 0x400 + (low - 0xDC00)), rest)
    else none
  else if 0xDC00 ≤ high ∧ high ≤ 0xDFFF then none
  else return (Char.ofNat high, rest)

/-- The character that an escape stands for, and the rest. -/
def readEscape : List Char → Option (Char × List Char)
  | 'u' :: rest => readUnits rest
  | 'n' :: rest => some ('\n', rest)
  | 't' :: rest => some ('\t', rest)
  | 'r' :: rest => some ('\x0d', rest)
  | 'b' :: rest => some ('\x08', rest)
  | 'f' :: rest => some ('\x0c', rest)
  | c :: rest => if c == '"' || c == '\\' || c == '/' then some (c, rest) else none
  | [] => none

/-- A text up to the quote that closes it, and the rest. -/
def readQuoted : Nat → List Char → List Char → Option (String × List Char)
  | 0, _, _ => none
  | _ + 1, _, [] => none
  | fuel + 1, read, c :: rest =>
    if c == '"' then some (String.ofList read.reverse, rest)
    else if c == '\\' then do
      let (c, rest) ← readEscape rest
      readQuoted fuel (c :: read) rest
    else readQuoted fuel (c :: read) rest

/-- The number of one digit or more. -/
def digits? (cs : List Char) : Option Nat :=
  if cs.isEmpty || !cs.all Char.isDigit then none else some (Text.digitsValue cs)

/-- The exponent of a number, zero if there is none. -/
def readExponent : List Char → Option Int
  | [] => some 0
  | mark :: rest =>
    if mark == 'e' || mark == 'E' then
      match rest with
      | '-' :: rest => (digits? rest).map fun n => -(n : Int)
      | '+' :: rest => (digits? rest).map fun n => (n : Int)
      | rest => (digits? rest).map fun n => (n : Int)
    else none

/-- The digits after a point, and the rest. -/
def readPlaces : List Char → Option (List Char × List Char)
  | '.' :: rest =>
    let (places, rest) := Text.spanDigits none rest
    if places.isEmpty then none else some (places, rest)
  | rest => some ([], rest)

/-- The digits in front of a point: no zero comes before another one. -/
def isWhole : List Char → Bool
  | [] => false
  | c :: rest => c != '0' || rest.isEmpty

/-- Takes up digits after a word, as long as 64 bits hold them: the word with them, and the number
of digits left over. -/
def takeUp : Nat → List Char → Nat × Nat
  | word, [] => (word, 0)
  | word, c :: rest =>
    let next := 10 * word + (c.toNat - '0'.toNat)
    if next < UInt64.size then takeUp next rest else (word, rest.length + 1)

/-- The double nearest to a power of ten. -/
def tenTo (exponent : Nat) : Float := .ofScientific 1 false exponent

/-- A word times a power of ten, as the double nearest to the word times or over the double of the
power; absent if that is too large. The largest power is 308, so that the least quotients take two
steps, and are zero beyond them. -/
def scaled? (word : Nat) (exponent : Int) : Option Float :=
  let value := word.toUInt64.toFloat
  if word = 0 then some 0
  else if 308 < exponent then none
  else if 0 ≤ exponent then
    let product := value * tenTo exponent.toNat
    if product.isInf then none else some product
  else if -308 ≤ exponent then some (value / tenTo (-exponent).toNat)
  else if -616 ≤ exponent then some (value / tenTo 308 / tenTo (-exponent - 308).toNat)
  else some 0

/-- The number with a whole part, places and an exponent: an integer if it has neither of the last
two and fits into 64 bits. The digits of a double count up to the first that 64 bits do not hold. -/
def numberOf? (negative : Bool) (whole places : List Char) (exponent : Option Int) :
    Option Number :=
  let (word, beyond) := takeUp 0 whole
  let fits := beyond == 0 && (!negative || (word != 0 && word ≤ UInt64.size / 2))
  if places.isEmpty && exponent.isNone && fits then
    some (.integer (if negative then -word else word))
  else
    let (word, left) := takeUp word places
    let scale := exponent.getD 0 + beyond - (places.length - left : Nat)
    (scaled? word scale).map fun value => .double (if negative then -value else value).toBits

/-- The number that characters without blanks stand for. -/
def readNumber (cs : List Char) : Option Number := do
  let negative := cs.head? == some '-'
  let (whole, rest) := Text.spanDigits none (if negative then cs.drop 1 else cs)
  let (places, rest) ← readPlaces rest
  let exponent ← readExponent rest
  let given := if rest.isEmpty then none else some exponent
  if isWhole whole then numberOf? negative whole places given else none

def isNumberChar (c : Char) : Bool :=
  c.isDigit || c == '-' || c == '+' || c == '.' || c == 'e' || c == 'E'

/-- A number, and the rest. -/
def readLeadingNumber (cs : List Char) : Option (Document × List Char) := do
  let n ← readNumber (cs.takeWhile isNumberChar)
  return (.number n, cs.dropWhile isNumberChar)

/-- Members with one more in front, which replaces another one of its name. -/
def replaced (name : String) (d : Document) (members : List (String × Document)) :
    List (String × Document) :=
  (name, d) :: members.filter fun m => m.1 != name

/-- How many lists and objects may be open at once. -/
def maxLayers : Nat := 127

mutual

/-- A document that opens no more than so many lists and objects at once, and the rest. Every step
takes a character, so that one more than the length of the text is fuel enough. -/
def readDocument : Nat → Nat → List Char → Option (Document × List Char)
  | 0, _, _ => none
  | fuel + 1, layers, cs =>
    match skipBlanks cs, layers with
    | '"' :: rest, _ => (readQuoted fuel [] rest).map fun (s, rest) => (.text s, rest)
    | '[' :: rest, layers + 1 =>
      match skipBlanks rest with
      | ']' :: rest => some (.list [], rest)
      | rest => readItems fuel layers [] rest
    | '\x7b' :: rest, layers + 1 =>
      match skipBlanks rest with
      | '\x7d' :: rest => some (.object [], rest)
      | rest => readMembers fuel layers [] rest
    | 'n' :: 'u' :: 'l' :: 'l' :: rest, _ => some (.null, rest)
    | 't' :: 'r' :: 'u' :: 'e' :: rest, _ => some (.boolean true, rest)
    | 'f' :: 'a' :: 'l' :: 's' :: 'e' :: rest, _ => some (.boolean false, rest)
    | cs, _ => readLeadingNumber cs

/-- The items of a list up to its end, and the rest. -/
def readItems : Nat → Nat → List Document → List Char → Option (Document × List Char)
  | 0, _, _, _ => none
  | fuel + 1, layers, read, cs => do
    let (d, rest) ← readDocument fuel layers cs
    match skipBlanks rest with
    | ',' :: rest => readItems fuel layers (d :: read) rest
    | ']' :: rest => some (.list (d :: read).reverse, rest)
    | _ => none

/-- The members of an object up to its end, and the rest. -/
def readMembers :
    Nat → Nat → List (String × Document) → List Char → Option (Document × List Char)
  | 0, _, _, _ => none
  | fuel + 1, layers, read, cs => do
    let '"' :: rest := skipBlanks cs | none
    let (name, rest) ← readQuoted fuel [] rest
    let ':' :: rest := skipBlanks rest | none
    let (d, rest) ← readDocument fuel layers rest
    match skipBlanks rest with
    | ',' :: rest => readMembers fuel layers (replaced name d read) rest
    | '\x7d' :: rest => some (.ofFields (replaced name d read).reverse, rest)
    | _ => none

end

/-- The document that a text stands for. -/
def ofText? (text : String) : Option Document := do
  let chars := text.toList
  let (d, rest) ← readDocument (chars.length + 1) maxLayers chars
  if (skipBlanks rest).isEmpty then return d else none

end GovernanceCache.Document
