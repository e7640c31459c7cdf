import SecureKit.Json.Reader
import SecureKit.Json.Writer

/-!
# JSON Tokens

A value is written as tokens with any blanks between them. What a reader makes of a value is said
once for all of its texts, for values that are refused as well.

* `Spaced` — the texts of some tokens.
* `Reads` — a reader takes all texts of some tokens off the front for one and the same value.
* `Reads.bind` — a reader followed by another one.
* `Reads.of_next`, `Reads.of_drop` — a reader that looks at the byte in front.
-/

namespace SecureKit.Json

/-- The text has the tokens in order, and blanks around them. -/
inductive Spaced : List Bytes → Bytes → Prop
  | nil {blanks : Bytes} (h : ∀ c ∈ blanks, Reader.isBlank c = true) : Spaced [] blanks
  | cons {blanks token text : Bytes} {tokens : List Bytes}
    (h : ∀ c ∈ blanks, Reader.isBlank c = true) (htext : Spaced tokens text) :
    Spaced (token :: tokens) (blanks ++ (token ++ text))

/-- Without any blanks the tokens are a text of themselves. -/
theorem spaced_flatten (tokens : List Bytes) : Spaced tokens tokens.flatten := by
  induction tokens with
  | nil => exact .nil (List.forall_mem_nil _)
  | cons token tokens ih => exact .cons (List.forall_mem_nil _) ih

/-- After the first tokens of a text come the others. -/
theorem Spaced.exists_of_append {tokens more : List Bytes} {text : Bytes}
    (h : Spaced (tokens ++ more) text) : ∃ rest, Spaced more rest := by
  induction tokens generalizing text with
  | nil => exact ⟨text, h⟩
  | cons token tokens ih =>
    obtain _ | ⟨_, htext⟩ := h
    exact ih htext

/-- The number of bytes of tokens without blanks. -/
def size (tokens : List Bytes) : Nat := tokens.flatten.length

@[simp]
theorem size_nil : size [] = 0 := rfl

@[simp]
theorem size_cons (token : Bytes) (tokens : List Bytes) :
    size (token :: tokens) = token.length + size tokens := by
  simp [size]

@[simp]
theorem size_append (tokens tokens' : List Bytes) :
    size (tokens ++ tokens') = size tokens + size tokens' := by
  simp [size]

/-- Blanks only make a text longer. -/
theorem Spaced.size_le {tokens : List Bytes} {text : Bytes} (h : Spaced tokens text) :
    size tokens ≤ text.length := by
  induction h with
  | nil => exact Nat.zero_le _
  | cons _ _ ih =>
    rw [size_cons, List.length_append, List.length_append]
    omega

/-- Items after one that they are separated from. -/
def followed (items : List (List Bytes)) : List Bytes :=
  items.flatMap fun item => [Bytes.ascii ','] :: item

/-- Items with commas between them. -/
def separated : List (List Bytes) → List Bytes
  | [] => []
  | item :: items => item ++ followed items

/-- The tokens of an array, from those of its elements. -/
def arrayTokens (elements : List (List Bytes)) : List Bytes :=
  [Bytes.ascii '['] :: (separated elements ++ [[Bytes.ascii ']']])

/-- The tokens of a member of an object, from its name and the tokens of its value. -/
def memberTokens (name : String) (value : List Bytes) : List Bytes :=
  quoted name :: [Bytes.ascii ':'] :: value

/-- The tokens of an object, from those of its members. -/
def objectTokens (members : List (List Bytes)) : List Bytes :=
  [Bytes.ascii '\x7b'] :: (separated members ++ [[Bytes.ascii '\x7d']])

@[simp]
theorem followed_nil : followed [] = [] := rfl

@[simp]
theorem followed_cons (item : List Bytes) (items : List (List Bytes)) :
    followed (item :: items) = [Bytes.ascii ','] :: (item ++ followed items) := rfl

/-- There is at least one byte for each item, its comma. -/
theorem length_le_size_followed (items : List (List Bytes)) :
    items.length ≤ size (followed items) := by
  induction items with
  | nil => exact Nat.zero_le _
  | cons item items ih =>
    rw [followed_cons, size_cons, size_append, List.length_cons, List.length_singleton]
    omega

/-- An item is not longer than all of them. -/
theorem size_le_size_followed {item : List Bytes} {items : List (List Bytes)} (h : item ∈ items) :
    size item ≤ size (followed items) := by
  induction h with
  | head => rw [followed_cons, size_cons, size_append]; omega
  | tail _ _ ih => rw [followed_cons, size_cons, size_append]; omega

/-- Items with brackets around them have more bytes than there are items, and than any of them. -/
theorem lt_size_bracketed (opening closing : UInt8) (items : List (List Bytes)) :
    items.length < size ([opening] :: (separated items ++ [[closing]])) ∧
      ∀ item ∈ items, size item < size ([opening] :: (separated items ++ [[closing]])) := by
  simp only [size_cons, size_append, size_nil, List.length_singleton]
  cases items with
  | nil => exact ⟨by rw [List.length_nil]; omega, List.forall_mem_nil _⟩
  | cons first items =>
    have hlength := length_le_size_followed items
    rw [separated, size_append, List.length_cons]
    refine ⟨by omega, fun item h => ?_⟩
    cases h with
    | head => omega
    | tail _ h =>
      have := size_le_size_followed h
      omega

theorem length_lt_size_arrayTokens (elements : List (List Bytes)) :
    elements.length < size (arrayTokens elements) := (lt_size_bracketed _ _ elements).1

theorem size_lt_size_arrayTokens {element : List Bytes} {elements : List (List Bytes)}
    (h : element ∈ elements) : size element < size (arrayTokens elements) :=
  (lt_size_bracketed _ _ elements).2 element h

theorem length_lt_size_objectTokens (members : List (List Bytes)) :
    members.length < size (objectTokens members) := (lt_size_bracketed _ _ members).1

/-- An object is longer than the value of each of its members. -/
theorem size_lt_size_objectTokens {name : String} {value : List Bytes} {members : List (List Bytes)}
    (h : memberTokens name value ∈ members) : size value < size (objectTokens members) := by
  have hvalue : size value ≤ size (memberTokens name value) := by
    rw [memberTokens, size_cons, size_cons]
    omega
  exact Nat.lt_of_le_of_lt hvalue ((lt_size_bracketed _ _ members).2 _ h)

/-- Without blanks, items are written with nothing but commas between them. -/
theorem flatten_separated (items : List (List Bytes)) :
    (separated items).flatten = List.intercalate [Bytes.ascii ','] (items.map List.flatten) := by
  cases items with
  | nil => rfl
  | cons item items =>
    induction items generalizing item with
    | nil => simp [separated]
    | cons next items ih =>
      have := ih next
      rw [separated] at this
      rw [separated, followed_cons, List.map_cons, List.map_cons, List.intercalate_cons_cons,
        ← List.map_cons, ← this]
      simp

/-- Arrays and objects are written as they are read, without any blanks. -/
theorem flatten_arrayTokens (elements : List (List Bytes)) :
    (arrayTokens elements).flatten = array (elements.map List.flatten) := by
  simp [arrayTokens, array, flatten_separated]

/-- Without blanks, the tokens of an object are the object as it is written. -/
theorem flatten_objectTokens (members : List (List Bytes)) :
    (objectTokens members).flatten = object (members.map List.flatten) := by
  simp [objectTokens, object, flatten_separated]

namespace Reader

/-- The tokens after a value: none, or one that cannot be taken for a part of it. -/
def Ends (more : List Bytes) : Prop :=
  ∀ token ∈ more.head?, ∃ c cs, token = c :: cs ∧ isDelimiter c = true

theorem ends_nil : Ends [] := by
  intro token h
  cases h

/-- A value may end in front of a delimiter. -/
theorem ends_cons {c : UInt8} (h : isDelimiter c = true) (cs : Bytes) (more : List Bytes) :
    Ends ((c :: cs) :: more) := by
  rintro token ⟨⟩
  exact ⟨c, cs, rfl, h⟩

/-- Tokens that may come after a value may have others behind them. -/
theorem Ends.append {tokens more : List Bytes} (h : Ends tokens) (hmore : Ends more) :
    Ends (tokens ++ more) := by
  cases tokens with
  | nil => exact hmore
  | cons token tokens => exact h

/-- The tokens start like a value, and one that is not `null`. -/
def Opens (tokens : List Bytes) : Prop :=
  ∃ c cs rest, tokens = (c :: cs) :: rest ∧ isBlank c = false ∧ isDelimiter c = false ∧
    c ≠ Bytes.ascii 'n'

variable {α β σ ι : Type}

/-- The reader takes every text of the tokens off the front of a text that goes on with other ones,
and gives the result; or it refuses every such text, if there is none. -/
def Reads (reader : Reader α) (tokens : List Bytes) (result : Option α) : Prop :=
  ∀ more text, Ends more → Spaced (tokens ++ more) text →
    ∃ rest, Spaced more rest ∧ reader text = result.map (·, rest)

theorem bind_apply (reader : Reader α) (next : α → Reader β) (text : Bytes) :
    (reader >>= next) text = (reader text).bind fun taken => next taken.1 taken.2 := rfl

theorem reads_pure (value : α) : Reads (pure value) [] (some value) :=
  fun _ text _ htext => ⟨text, htext, rfl⟩

theorem reads_fail (tokens : List Bytes) : Reads (fail : Reader α) tokens none := by
  intro more text _ htext
  obtain ⟨rest, hrest⟩ := htext.exists_of_append
  exact ⟨rest, hrest, rfl⟩

/-- A reader followed by another one reads the tokens of both. -/
theorem Reads.bind {reader : Reader α} {next : α → Reader β} {tokens tokens' : List Bytes}
    {result : Option α} {result' : α → Option β} (h : Reads reader tokens result)
    (hends : Ends tokens') (hnext : ∀ value ∈ result, Reads (next value) tokens' (result' value)) :
    Reads (reader >>= next) (tokens ++ tokens') (result.bind result') := by
  intro more text hmore htext
  rw [List.append_assoc] at htext
  obtain ⟨rest, hrest, hreader⟩ := h (tokens' ++ more) text (hends.append hmore) htext
  rw [bind_apply, hreader]
  cases result with
  | none =>
    obtain ⟨last, hlast⟩ := hrest.exists_of_append
    exact ⟨last, hlast, rfl⟩
  | some value => exact hnext value rfl more rest hmore hrest

/-- A reader whose result is looked at once more. -/
theorem Reads.bind_nil {reader : Reader α} {next : α → Reader β} {tokens : List Bytes}
    {result : Option α} {result' : α → Option β} (h : Reads reader tokens result)
    (hnext : ∀ value ∈ result, Reads (next value) [] (result' value)) :
    Reads (reader >>= next) tokens (result.bind result') := by
  have := h.bind ends_nil hnext
  rwa [List.append_nil] at this

theorem Reads.map {reader : Reader α} {tokens : List Bytes} {result : Option α} (f : α → β)
    (h : Reads reader tokens result) : Reads (f <$> reader) tokens (result.map f) := by
  rw [← bind_pure_comp, Option.map_eq_bind]
  exact h.bind_nil fun value _ => reads_pure (f value)

/-- The byte in front is found after the blanks, and stays. -/
theorem next_eq {c : UInt8} {cs text : Bytes} {tokens : List Bytes} (hc : isBlank c = false)
    (h : Spaced ((c :: cs) :: tokens) text) :
    ∃ rest, Spaced tokens rest ∧ next text = some (c, (c :: cs) ++ rest) := by
  obtain _ | ⟨hblanks, hrest⟩ := h
  refine ⟨_, hrest, ?_⟩
  rw [next, List.dropWhile_append_of_pos hblanks, List.cons_append, List.dropWhile_cons,
    if_neg (by rw [hc]; decide)]

/-- A reader that looks at the byte in front. -/
theorem Reads.of_next {f : UInt8 → Reader α} {c : UInt8} {cs : Bytes} {tokens : List Bytes}
    {result : Option α} (hc : isBlank c = false) (h : Reads (f c) ((c :: cs) :: tokens) result) :
    Reads (next >>= f) ((c :: cs) :: tokens) result := by
  intro more text hmore htext
  obtain ⟨rest, hrest, hnext⟩ := next_eq hc htext
  rw [bind_apply, hnext]
  exact h more _ hmore (.cons (List.forall_mem_nil _) hrest)

/-- A reader that takes the byte in front, when it is the one that it looks for. -/
theorem Reads.of_drop {f : UInt8 → Reader α} {reader : Reader α} {c : UInt8} {tokens : List Bytes}
    {result : Option α} (hc : isBlank c = false) (hf : f c = (do drop; reader))
    (h : Reads reader tokens result) : Reads (next >>= f) ([c] :: tokens) result := by
  intro more text hmore htext
  obtain ⟨rest, hrest, hnext⟩ := next_eq hc htext
  rw [bind_apply, hnext, Option.bind_some, hf]
  exact h more rest hmore hrest

/-- A mark is taken before the rest is read. -/
theorem Reads.of_expect {reader : Reader α} {c : UInt8} {tokens : List Bytes} {result : Option α}
    (hc : isBlank c = false) (h : Reads reader tokens result) :
    Reads (do expect c; reader) ([c] :: tokens) result := by
  rw [expect, bind_assoc]
  exact .of_drop hc (by rw [if_pos rfl]) h

end Reader

end SecureKit.Json
