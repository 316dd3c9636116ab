import WorkflowEngine.Foundations.Numerals

/-!
# JSON

The values of JSON as JavaScript has them, `JSON.stringify` without indentation and
`JSON.parse`.  An object is the list of its entries with distinct keys, in the order in
which JavaScript lists and prints them.
-/

open Text Numerals

inductive Json where
  | null
  | bool (value : Bool)
  | number (value : Number)
  | string (value : Text)
  | array (items : List Json)
  | object (entries : List (Text × Json))

namespace Json

/-! ## Strings -/

/-- A hexadecimal digit in lower case. -/
def hexDigit (digit : ℕ) : CodeUnit := if digit < 10 then digitUnit digit else (87 + digit).toUInt16

def unicodeEscape (first : CodeUnit) : Text :=
  [unit '\\', unit 'u', hexDigit (first.toNat / 4096), hexDigit (first.toNat / 256 % 16),
    hexDigit (first.toNat / 16 % 16), hexDigit (first.toNat % 16)]

/-- One code unit that is not part of a surrogate pair, inside quotation marks. -/
def quoteUnit (first : CodeUnit) : Text :=
  if first = unit '"' then [unit '\\', unit '"']
  else if first = unit '\\' then [unit '\\', unit '\\']
  else if first = 8 then [unit '\\', unit 'b']
  else if first = 9 then [unit '\\', unit 't']
  else if first = 10 then [unit '\\', unit 'n']
  else if first = 12 then [unit '\\', unit 'f']
  else if first = 13 then [unit '\\', unit 'r']
  else if first < 32 ∨ isHigh first ∨ isLow first then unicodeEscape first
  else [first]

/-- The code units of a string inside quotation marks; a surrogate pair is printed as
it is, a surrogate alone is escaped. -/
def quoteUnits : Text → Text
  | [] => []
  | [first] => quoteUnit first
  | first :: second :: rest =>
      if isHigh first && isLow second then first :: second :: quoteUnits rest
      else quoteUnit first ++ quoteUnits (second :: rest)

/-- `JSON.stringify` of a string. -/
def quote (text : Text) : Text := unit '"' :: quoteUnits text ++ [unit '"']

/-! ## Printing -/

/-- Texts separated by commas. -/
def commaSeparated : List Text → Text
  | [] => []
  | [text] => text
  | text :: rest => text ++ unit ',' :: commaSeparated rest

mutual

/-- `JSON.stringify` -/
def stringify : Json → Text
  | .null => ofString "null"
  | .bool true => ofString "true"
  | .bool false => ofString "false"
  | .number value => if value.isFinite then numberText value else ofString "null"
  | .string value => quote value
  | .array items => unit '[' :: commaSeparated (stringifyItems items) ++ [unit ']']
  | .object entries => unit '{' :: commaSeparated (stringifyEntries entries) ++ [unit '}']

def stringifyItems : List Json → List Text
  | [] => []
  | item :: rest => stringify item :: stringifyItems rest

def stringifyEntries : List (Text × Json) → List Text
  | [] => []
  | (key, value) :: rest => (quote key ++ unit ':' :: stringify value) :: stringifyEntries rest

end

/-! ## Reading -/

def isSpace (first : CodeUnit) : Bool :=
  first == unit ' ' || first == unit '\t' || first == unit '\n' || first == unit '\r'

def skipSpace (text : Text) : Text := text.dropWhile isSpace

def hexValue (first : CodeUnit) : Option ℕ :=
  if isDigit first then some (digitValue first)
  else if unit 'a' ≤ first && first ≤ unit 'f' then some (first.toNat - 87)
  else if unit 'A' ≤ first && first ≤ unit 'F' then some (first.toNat - 55)
  else none

/-- The code unit of four hexadecimal digits. -/
def hexUnit (first second third fourth : CodeUnit) : Option CodeUnit :=
  match hexValue first, hexValue second, hexValue third, hexValue fourth with
  | some a, some b, some c, some d => some (a * 4096 + b * 256 + c * 16 + d).toUInt16
  | _, _, _, _ => none

/-- The code unit of an escape of one character. -/
def shortEscape (first : CodeUnit) : Option CodeUnit :=
  if first = unit '"' then some (unit '"')
  else if first = unit '\\' then some (unit '\\')
  else if first = unit '/' then some (unit '/')
  else if first = unit 'b' then some 8
  else if first = unit 't' then some 9
  else if first = unit 'n' then some 10
  else if first = unit 'f' then some 12
  else if first = unit 'r' then some 13
  else none

/-- A string after its opening quotation mark. -/
def readString : Text → Option (Text × Text)
  | [] => none
  | first :: rest =>
      if first = unit '"' then some ([], rest)
      else if first = unit '\\' then
        match rest with
        | [] => none
        | escape :: rest =>
            if escape = unit 'u' then
              match rest with
              | a :: b :: c :: d :: rest =>
                  match hexUnit a b c d with
                  | none => none
                  | some value => (readString rest).map fun read => (value :: read.1, read.2)
              | _ => none
            else
              match shortEscape escape with
              | none => none
              | some value => (readString rest).map fun read => (value :: read.1, read.2)
      else if first < 32 then none
      else (readString rest).map fun read => (first :: read.1, read.2)

/-- A word that stands for a value. -/
def readWord (word : Text) (value : Json) (text : Text) : Option (Json × Text) :=
  if word.isPrefixOf text then some (value, text.drop word.length) else none

/-- The key of an entry with its colon. -/
def readKey : Text → Option (Text × Text)
  | [] => none
  | first :: rest =>
      if first = unit '"' then
        match readString rest with
        | none => none
        | some (key, rest) =>
            match skipSpace rest with
            | [] => none
            | second :: rest => if second = unit ':' then some (key, rest) else none
      else none

/-- The number of a key that is an array index: in decimal, without leading zeros and below
2 ^ 32 - 1. -/
def arrayIndex? (key : Text) : Option ℕ :=
  if key ≠ [] ∧ key.all isDigit ∧ (key.head? = some (unit '0') → key.length = 1) ∧
      digitsValue key < 4294967295 then
    some (digitsValue key)
  else none

/-- Array indices come first among the keys of an object, in ascending order, and then the
other keys in the order in which they were added. -/
def precedes (left right : Text) : Bool :=
  match arrayIndex? right with
  | none => true
  | some index => (arrayIndex? left).any fun other => decide (other ≤ index)

/-- A new entry behind those that precede it. -/
def insertEntry (entry : Text × Json) : List (Text × Json) → List (Text × Json)
  | [] => [entry]
  | first :: rest =>
      if precedes first.1 entry.1 then first :: insertEntry entry rest else entry :: first :: rest

/-- A later entry replaces an earlier one with the same key. -/
def setEntry (entries : List (Text × Json)) (entry : Text × Json) : List (Text × Json) :=
  if entry.1 ∈ entries.map Prod.fst then
    entries.map fun other => if other.1 = entry.1 then entry else other
  else insertEntry entry entries

/-- The object of the entries of a text. -/
def collect (entries : List (Text × Json)) : List (Text × Json) := entries.foldl setEntry []

mutual

/-- A value; `fuel` bounds the number of nested and of successive values. -/
def readValue : ℕ → Text → Option (Json × Text)
  | 0, _ => none
  | fuel + 1, text =>
      match skipSpace text with
      | [] => none
      | first :: rest =>
          if first = unit '{' then
            match skipSpace rest with
            | [] => none
            | second :: more =>
                if second = unit '}' then some (.object [], more)
                else (readEntries fuel (second :: more)).map fun read =>
                  (.object (collect read.1), read.2)
          else if first = unit '[' then
            match skipSpace rest with
            | [] => none
            | second :: more =>
                if second = unit ']' then some (.array [], more)
                else (readItems fuel (second :: more)).map fun read => (.array read.1, read.2)
          else if first = unit '"' then
            (readString rest).map fun read => (.string read.1, read.2)
          else if first = unit 'n' then readWord (ofString "null") .null (first :: rest)
          else if first = unit 't' then readWord (ofString "true") (.bool true) (first :: rest)
          else if first = unit 'f' then readWord (ofString "false") (.bool false) (first :: rest)
          else (readNumber (first :: rest)).map fun read => (.number read.1, read.2)

/-- The items of an array up to its end. -/
def readItems : ℕ → Text → Option (List Json × Text)
  | 0, _ => none
  | fuel + 1, text =>
      match readValue fuel text with
      | none => none
      | some (item, rest) =>
          match skipSpace rest with
          | [] => none
          | first :: more =>
              if first = unit ',' then
                (readItems fuel more).map fun read => (item :: read.1, read.2)
              else if first = unit ']' then some ([item], more)
              else none

/-- The entries of an object up to its end. -/
def readEntries : ℕ → Text → Option (List (Text × Json) × Text)
  | 0, _ => none
  | fuel + 1, text =>
      match readKey (skipSpace text) with
      | none => none
      | some (key, rest) =>
          match readValue fuel rest with
          | none => none
          | some (value, rest) =>
              match skipSpace rest with
              | [] => none
              | first :: more =>
                  if first = unit ',' then
                    (readEntries fuel more).map fun read => ((key, value) :: read.1, read.2)
                  else if first = unit '}' then some ([(key, value)], more)
                  else none

end

/-- `JSON.parse`; nothing where it throws.  No value needs more fuel than its text is
long. -/
def parse (text : Text) : Option Json :=
  match readValue (text.length + 1) text with
  | none => none
  | some (value, rest) => if skipSpace rest = [] then some value else none

end Json
