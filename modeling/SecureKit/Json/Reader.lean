import SecureKit.Text.Decimal

/-!
# JSON Reader

A reader takes a value off the front of a byte string. The language read is JSON as far as it has to
be looked at, and is more lenient where it is not:

* a string is the raw text between its quotes; escapes are not resolved, but a quote after an odd
  number of backslashes does not end it;
* in an array a comma may stand before the first element, and one element may follow without a
  comma;
* a value that nobody asked for is skipped, and unless it is a string, an array or an object
  anything up to the next delimiter passes for it.

Readers of nested values take the nesting depth they may reach; `document` allows the length of the
text, which no text exceeds.
-/

namespace SecureKit.Json

/-- Takes a value off the front of a byte string, or fails. -/
abbrev Reader := StateT Bytes Option

namespace Reader

/-- Whether `c` may stand between tokens: blank, tab, line feed and carriage return. -/
def isBlank (c : UInt8) : Bool := c = 0x20 || c = 0x09 || c = 0x0A || c = 0x0D

/-- Fail. -/
def fail {α : Type} : Reader α := fun _ => none

/-- The first byte after blanks, which stays in front. -/
def next : Reader UInt8 := fun bytes =>
  match bytes.dropWhile isBlank with
  | [] => none
  | c :: rest => some (c, c :: rest)

/-- Take the byte in front. -/
def drop : Reader Unit := fun bytes => some ((), bytes.tail)

/-- Take the byte `c` after blanks. -/
def expect (c : UInt8) : Reader Unit := do
  if (← next) = c then drop else fail

/-- Take exactly the bytes `expected`. -/
def literal (expected : Bytes) : Reader Unit := fun bytes =>
  if expected.isPrefixOf bytes then some ((), bytes.drop expected.length) else none

/-- The bytes up to the closing quote of a string, and those after it. `escaped` tells whether an
odd number of backslashes stands in front. -/
def closing? (escaped : Bool) : Bytes → Option (Bytes × Bytes)
  | [] => none
  | c :: rest =>
    if c = Bytes.ascii '\"' && !escaped then some ([], rest)
    else (closing? (c = Bytes.ascii '\\' && !escaped) rest).map fun (text, after) =>
      (c :: text, after)

/-- The raw text of a string. -/
def text : Reader String := do
  expect (Bytes.ascii '\"')
  fun bytes => do
    let (content, rest) ← closing? false bytes
    return (← content.text?, rest)

/-- A number below `limit` without a sign. A zero in front is the whole number. -/
def natural (limit : Nat) : Reader Nat := do
  let c ← next
  if c = Bytes.ascii '0' then
    drop
    return 0
  else fun bytes =>
    let digits := bytes.takeWhile Decimal.isDigit
    let value := Decimal.value digits
    if digits ≠ [] && value < limit then some (value, bytes.dropWhile Decimal.isDigit) else none

/-- A value that may be `null`. -/
def nullable {α : Type} (reader : Reader α) : Reader (Option α) := do
  if (← next) = Bytes.ascii 'n' then
    drop
    literal (Bytes.ofText "ull")
    return none
  else
    return some (← reader)

/-- The rest of an array after its opening bracket, with at most `fuel` elements. `first` holds
until an element was read without a comma in front. -/
def elements {α : Type} (element : Reader α) : (fuel : Nat) → (first : Bool) → Reader (List α)
  | 0, _ => fail
  | fuel + 1, first => do
    let c ← next
    if c = Bytes.ascii ']' then
      drop
      return []
    else if c = Bytes.ascii ',' then
      drop
      if (← next) = Bytes.ascii ']' then fail
      else
        let value ← element
        return value :: (← elements element fuel first)
    else if first then
      -- one element may do without a comma, and none after it
      let value ← element
      return value :: (← elements element fuel false)
    else fail

/-- An array of at most `fuel` elements. -/
def array {α : Type} (element : Reader α) (fuel : Nat) : Reader (List α) := do
  expect (Bytes.ascii '[')
  elements element fuel true

/-- The rest of an object after its opening brace, with at most `fuel` members. `member` reads the
value of the member with the given name and adds it to the state. -/
def members {σ : Type} (member : String → σ → Reader σ) :
    (fuel : Nat) → (first : Bool) → σ → Reader σ
  | 0, _, _ => fail
  | fuel + 1, first, state => do
    let c ← next
    if c = Bytes.ascii '\x7d' then
      drop
      return state
    else if first || c = Bytes.ascii ',' then
      -- in front of the first member there is no comma to be taken
      if !first then drop
      let name ← text
      expect (Bytes.ascii ':')
      members member fuel false (← member name state)
    else fail

/-- An object of at most `fuel` members. -/
def object {σ : Type} (member : String → σ → Reader σ) (fuel : Nat) (state : σ) : Reader σ := do
  expect (Bytes.ascii '\x7b')
  members member fuel true state

/-- Whether `c` ends a value that is not looked at. -/
def isDelimiter (c : UInt8) : Bool :=
  c = Bytes.ascii ',' || c = Bytes.ascii '\x7d' || c = Bytes.ascii ']'

/-- Pass over the bytes in front of a delimiter, which must come. -/
def skipPlain : Reader Unit := fun bytes =>
  match bytes.dropWhile (!isDelimiter ·) with
  | [] => none
  | rest => some ((), rest)

/-- Pass over a value of nesting depth up to `depth`. -/
def skip : (depth : Nat) → Reader Unit
  | 0 => fail
  | depth + 1 => do
    let c ← next
    if c = Bytes.ascii '\"' then
      let _ ← text
    else if c = Bytes.ascii '[' then
      let _ ← array (skip depth) depth
    else if c = Bytes.ascii '\x7b' then
      object (fun _ _ => skip depth) depth ()
    else if isDelimiter c then fail
    else skipPlain

/-- Read the member of a name that may occur once, unless it has occurred. -/
def once {α : Type} (seen : Option α) (reader : Reader α) : Reader (Option α) :=
  match seen with
  | some _ => fail
  | none => return some (← reader)

/-- The value of a text that holds nothing but one value and blanks. The reader is given a bound for
depth and number of members that the text cannot exceed. -/
def document {α : Type} (reader : Nat → Reader α) (bytes : Bytes) : Option α :=
  match reader (bytes.length + 1) bytes with
  | some (value, rest) => if rest.all isBlank then some value else none
  | none => none

end Reader

end SecureKit.Json
