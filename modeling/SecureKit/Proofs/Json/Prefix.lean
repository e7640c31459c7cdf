import SecureKit.Json.Reader

/-!
# Readers and Longer Texts

A value is not read in another way because more text follows it. A reader of a number has to see
where the digits end; a reader of an array or an object ends with the closing bracket and looks no
further. So no object is read from a part of a text that is an object itself.

Two readers are related here, as the one of the longer text may be given more fuel.

* `Extends` — what is taken off the front of a text is taken off the front of all longer ones, if
  something stands behind it.
* `Closes` — the same for readers that end with a mark of their own.
* `extends_skip` — values that are passed over.
* `closes_object` — objects, with members of any kind.
* `document_append` — a text that is read, as a part of one.
-/

namespace SecureKit.Json.Reader

variable {α β σ : Type}

/-- What the first reader takes off the front of a text, the second takes off the front of every
longer text, if it was not all of the text. -/
def Extends (reader reader' : Reader α) : Prop :=
  ∀ text value rest, reader text = some (value, rest) →
    rest <:+ text ∧ (rest ≠ [] → ∀ more, reader' (text ++ more) = some (value, rest ++ more))

/-- What the first reader takes off the front of the text, the second takes off the front of every
longer text. -/
def ClosesOn (reader reader' : Reader α) (text : Bytes) : Prop :=
  ∀ value rest, reader text = some (value, rest) →
    rest <:+ text ∧ ∀ more, reader' (text ++ more) = some (value, rest ++ more)

/-- What the first reader takes off the front of a text, the second takes off the front of every
longer text. There is a mark at its end, and so no value in an empty text. -/
structure Closes (reader reader' : Reader α) : Prop where
  nil : reader [] = none
  on : ∀ text, ClosesOn reader reader' text

section Sequencing

variable {reader reader' : Reader α}

/-- With a mark at the end of a value it makes no difference whether the text goes on. -/
theorem Closes.extends (h : Closes reader reader') : Extends reader reader' := by
  intro text value rest hread
  obtain ⟨hsuffix, hmore⟩ := h.on text value rest hread
  exact ⟨hsuffix, fun _ => hmore⟩

/-- A reader that takes nothing takes nothing off a longer text. -/
theorem extends_pure (value : α) : Extends (pure value) (pure value) := by
  rintro text _ _ ⟨⟩
  exact ⟨List.suffix_rfl, fun _ _ => rfl⟩

theorem extends_fail (reader' : Reader α) : Extends fail reader' := nofun

theorem closes_fail (reader' : Reader α) : Closes fail reader' := ⟨rfl, nofun⟩

/-- What a reader followed by another one gives comes from both. -/
theorem bind_eq_some_iff {next : α → Reader β} {text : Bytes} {result : β × Bytes} :
    (reader >>= next) text = some result ↔
      ∃ value rest, reader text = some (value, rest) ∧ next value rest = some result := by
  show (reader text).bind _ = _ ↔ _
  rw [Option.bind_eq_some_iff, Prod.exists]

/-- What the second reader leaves is left by the first as well, which so has not taken all. -/
theorem Extends.bind {next next' : α → Reader β} (h : Extends reader reader')
    (hnext : ∀ value, Extends (next value) (next' value)) :
    Extends (reader >>= next) (reader' >>= next') := by
  intro text value rest hread
  obtain ⟨first, middle, hfirst, hsecond⟩ := bind_eq_some_iff.1 hread
  obtain ⟨hmiddle, hmore⟩ := h text first middle hfirst
  obtain ⟨hrest, hmore'⟩ := hnext first middle value rest hsecond
  refine ⟨hrest.trans hmiddle, fun hne more => ?_⟩
  have hne' : middle ≠ [] := by
    rintro rfl
    exact hne (List.suffix_nil.1 hrest)
  exact bind_eq_some_iff.2 ⟨first, middle ++ more, hmore hne' more, hmore' hne more⟩

/-- There is a mark for the second reader in what the first has left. -/
theorem Extends.bind_closes {next next' : α → Reader β} (h : Extends reader reader')
    (hnext : ∀ value, Closes (next value) (next' value)) :
    Closes (reader >>= next) (reader' >>= next') := by
  have hmiddle : ∀ {text first middle result}, reader text = some (first, middle) →
      next first middle = some result → middle <:+ text ∧ middle ≠ [] := by
    intro text first middle result hfirst hsecond
    refine ⟨(h text first middle hfirst).1, ?_⟩
    rintro rfl
    rw [(hnext first).nil] at hsecond
    cases hsecond
  constructor
  · -- what is left of an empty text is empty
    refine Option.eq_none_iff_forall_ne_some.2 fun result hread => ?_
    obtain ⟨first, middle, hfirst, hsecond⟩ := bind_eq_some_iff.1 hread
    obtain ⟨hsuffix, hne⟩ := hmiddle hfirst hsecond
    exact hne (List.suffix_nil.1 hsuffix)
  · intro text value rest hread
    obtain ⟨first, middle, hfirst, hsecond⟩ := bind_eq_some_iff.1 hread
    obtain ⟨hsuffix, hne⟩ := hmiddle hfirst hsecond
    obtain ⟨-, hmore⟩ := h text first middle hfirst
    obtain ⟨hrest, hmore'⟩ := (hnext first).on middle value rest hsecond
    refine ⟨hrest.trans hsuffix, fun more => ?_⟩
    exact bind_eq_some_iff.2 ⟨first, middle ++ more, hmore hne more, hmore' more⟩

theorem Extends.map (f : α → β) (h : Extends reader reader') :
    Extends (f <$> reader) (f <$> reader') := by
  rw [← bind_pure_comp, ← bind_pure_comp]
  exact h.bind fun value => extends_pure (f value)

theorem Closes.map (f : α → β) (h : Closes reader reader') :
    Closes (f <$> reader) (f <$> reader') := by
  rw [← bind_pure_comp, ← bind_pure_comp]
  constructor
  · refine Option.eq_none_iff_forall_ne_some.2 fun result hread => ?_
    obtain ⟨value, rest, hvalue, -⟩ := bind_eq_some_iff.1 hread
    rw [h.nil] at hvalue
    cases hvalue
  · intro text value rest hread
    obtain ⟨first, middle, hfirst, ⟨⟩⟩ := bind_eq_some_iff.1 hread
    obtain ⟨hsuffix, hmore⟩ := h.on text first rest hfirst
    exact ⟨hsuffix, fun more => bind_eq_some_iff.2 ⟨first, rest ++ more, hmore more, rfl⟩⟩

/-- Both readers take the same way. -/
theorem ClosesOn.ite {other other' : Reader α} {text : Bytes} {p : Prop} [Decidable p]
    (h : p → ClosesOn reader reader' text) (hother : ¬p → ClosesOn other other' text) :
    ClosesOn (if p then reader else other) (if p then reader' else other') text := by
  by_cases hp : p
  · rw [if_pos hp, if_pos hp]
    exact h hp
  · rw [if_neg hp, if_neg hp]
    exact hother hp

/-- A choice between two readers extends if both of them do. -/
theorem Extends.ite {other other' : Reader α} {p : Prop} [Decidable p]
    (h : Extends reader reader') (hother : Extends other other') :
    Extends (if p then reader else other) (if p then reader' else other') := by
  by_cases hp : p
  · rwa [if_pos hp, if_pos hp]
  · rwa [if_neg hp, if_neg hp]

end Sequencing

section Bytes

/-- What is passed over ends at a byte that more text behind it does not change. -/
theorem dropWhile_append_of_ne_nil {p : UInt8 → Bool} {text : Bytes} (h : text.dropWhile p ≠ [])
    (more : Bytes) : (text ++ more).dropWhile p = text.dropWhile p ++ more := by
  rw [List.dropWhile_append, if_neg (by simpa using h)]

/-- Bytes are taken up to the same place of a longer text, if there is such a place. -/
theorem takeWhile_append_of_ne_nil {p : UInt8 → Bool} {text : Bytes} (h : text.dropWhile p ≠ [])
    (more : Bytes) : (text ++ more).takeWhile p = text.takeWhile p := by
  have hlength : (text.takeWhile p).length ≠ text.length := by
    intro hlength
    have hsplit := congrArg List.length (List.takeWhile_append_dropWhile (p := p) (l := text))
    rw [List.length_append, hlength] at hsplit
    exact h (List.length_eq_zero_iff.1 (by omega))
  rw [List.takeWhile_append, if_neg hlength]

/-- The byte in front is the first one after the blanks. -/
theorem next_eq_some_iff {text rest : Bytes} {c : UInt8} :
    next text = some (c, rest) ↔ ∃ cs, text.dropWhile isBlank = c :: cs ∧ rest = c :: cs := by
  rw [next]
  cases text.dropWhile isBlank with
  | nil => simp
  | cons c' cs =>
    constructor
    · rintro ⟨⟩
      exact ⟨cs, rfl, rfl⟩
    · rintro ⟨_, ⟨⟩, rfl⟩
      rfl

/-- The next byte after blanks is the same in a longer text. -/
theorem extends_next : Extends next next := by
  intro text c rest hread
  obtain ⟨cs, hdrop, rfl⟩ := next_eq_some_iff.1 hread
  refine ⟨hdrop ▸ List.dropWhile_suffix isBlank, fun hne more => ?_⟩
  refine next_eq_some_iff.2 ⟨cs ++ more, ?_, rfl⟩
  rw [dropWhile_append_of_ne_nil (hdrop ▸ hne), hdrop, List.cons_append]

theorem extends_drop : Extends drop drop := by
  rintro text _ _ ⟨⟩
  refine ⟨List.tail_suffix text, fun hne more => ?_⟩
  cases text with
  | nil => exact absurd rfl hne
  | cons c cs => rfl

/-- A byte in front is taken whatever comes after it. -/
theorem closesOn_drop (value : α) (c : UInt8) (cs : Bytes) :
    ClosesOn (do drop; return value) (do drop; return value) (c :: cs) := by
  rintro _ _ ⟨⟩
  exact ⟨List.suffix_cons c cs, fun _ => rfl⟩

/-- A reader that looks at the byte in front closes if it does so on all texts with such a byte. -/
theorem closes_of_next {f f' : UInt8 → Reader α}
    (h : ∀ c cs, ClosesOn (f c) (f' c) (c :: cs)) : Closes (next >>= f) (next >>= f') := by
  refine ⟨rfl, fun text value rest hread => ?_⟩
  obtain ⟨c, middle, hnext, hf⟩ := bind_eq_some_iff.1 hread
  obtain ⟨hsuffix, hmore⟩ := extends_next text c middle hnext
  obtain ⟨cs, -, rfl⟩ := next_eq_some_iff.1 hnext
  obtain ⟨hrest, hmore'⟩ := h c cs value rest hf
  refine ⟨hrest.trans hsuffix, fun more => bind_eq_some_iff.2 ⟨c, _, ?_, hmore' more⟩⟩
  exact hmore (List.cons_ne_nil c cs) more

/-- A byte that is expected is its own mark. -/
theorem closes_expect (c : UInt8) : Closes (expect c) (expect c) :=
  closes_of_next fun c' cs => .ite (fun _ => closesOn_drop () c' cs) fun _ => (closes_fail _).on _

theorem extends_literal (expected : Bytes) : Extends (literal expected) (literal expected) := by
  intro text value rest hread
  rw [literal] at hread
  split at hread
  next hprefix =>
    obtain ⟨⟩ := hread
    obtain ⟨tail, rfl⟩ := List.isPrefixOf_iff_prefix.1 hprefix
    have hlonger : ∀ more, expected.isPrefixOf (expected ++ tail ++ more) = true := fun more =>
      List.isPrefixOf_iff_prefix.2 ⟨tail ++ more, (List.append_assoc ..).symm⟩
    rw [List.drop_left]
    refine ⟨List.suffix_append expected tail, fun _ more => ?_⟩
    rw [literal, if_pos (hlonger more), List.append_assoc, List.drop_left]
  next => cases hread

/-- A string ends at its quote. -/
theorem closing?_append_of_eq_some {escaped : Bool} {bytes content rest : Bytes}
    (h : closing? escaped bytes = some (content, rest)) :
    rest <:+ bytes ∧ ∀ more, closing? escaped (bytes ++ more) = some (content, rest ++ more) := by
  induction bytes generalizing escaped content with
  | nil => cases h
  | cons c bytes ih =>
    rw [closing?] at h
    split at h
    next hquote =>
      obtain ⟨⟩ := h
      refine ⟨List.suffix_cons c rest, fun more => ?_⟩
      rw [List.cons_append, closing?, if_pos hquote]
    next hquote =>
      obtain ⟨⟨content', rest'⟩, hclosing, ⟨⟩⟩ := Option.map_eq_some_iff.1 h
      obtain ⟨hsuffix, hmore⟩ := ih hclosing
      refine ⟨hsuffix.trans (List.suffix_cons c bytes), fun more => ?_⟩
      rw [List.cons_append, closing?, if_neg hquote, hmore more, Option.map_some]

/-- A quoted name ends with its quote, whatever comes after it. -/
theorem extends_text : Extends text text := by
  refine (closes_expect _).extends.bind fun _ => ?_
  intro bytes name rest hread
  obtain ⟨⟨content, after⟩, hclosing, hread⟩ := Option.bind_eq_some_iff.1 hread
  obtain ⟨name', hname, ⟨⟩⟩ := Option.bind_eq_some_iff.1 hread
  obtain ⟨hsuffix, hmore⟩ := closing?_append_of_eq_some hclosing
  refine ⟨hsuffix, fun _ more => ?_⟩
  refine Option.bind_eq_some_iff.2 ⟨(content, rest ++ more), hmore more, ?_⟩
  exact Option.bind_eq_some_iff.2 ⟨name, hname, rfl⟩

/-- A number ends where something else than a digit stands. -/
theorem extends_natural (limit : Nat) : Extends (natural limit) (natural limit) := by
  refine extends_next.bind fun c => .ite (extends_drop.bind fun _ => extends_pure 0) ?_
  intro text value rest hread
  dsimp only at hread
  split at hread
  next hdigits =>
    obtain ⟨⟩ := hread
    refine ⟨List.dropWhile_suffix Decimal.isDigit, fun hne more => ?_⟩
    dsimp only
    rw [takeWhile_append_of_ne_nil hne, dropWhile_append_of_ne_nil hne, if_pos hdigits]
  next => cases hread

/-- A plain value is skipped up to a delimiter, which has to be there. -/
theorem skipPlain_eq_some_iff {text rest : Bytes} :
    skipPlain text = some ((), rest) ↔ text.dropWhile (!isDelimiter ·) = rest ∧ rest ≠ [] := by
  rw [skipPlain]
  cases text.dropWhile (!isDelimiter ·) with
  | nil => simp
  | cons c cs =>
    constructor
    · rintro ⟨⟩
      exact ⟨rfl, List.cons_ne_nil c cs⟩
    · rintro ⟨rfl, -⟩
      rfl

/-- A plain value is skipped up to its delimiter, whatever follows. -/
theorem extends_skipPlain : Extends skipPlain skipPlain := by
  intro text _ rest hread
  obtain ⟨rfl, hne⟩ := skipPlain_eq_some_iff.1 hread
  refine ⟨List.dropWhile_suffix _, fun _ more => skipPlain_eq_some_iff.2 ⟨?_, ?_⟩⟩
  · exact dropWhile_append_of_ne_nil hne more
  · exact List.append_ne_nil_of_left_ne_nil hne more

end Bytes

section Values

variable {fuel fuel' : Nat}

/-- That `null` may stand for the value makes no difference. -/
theorem Extends.nullable {reader reader' : Reader α} (h : Extends reader reader') :
    Extends (nullable reader) (nullable reader') := by
  refine extends_next.bind fun c => .ite ?_ (h.bind fun value => extends_pure (some value))
  exact extends_drop.bind fun _ => (extends_literal _).bind fun _ => extends_pure none

/-- That the value must not have occurred makes no difference. -/
theorem Extends.once {reader reader' : Reader α} (seen : Option α) (h : Extends reader reader') :
    Extends (once seen reader) (once seen reader') := by
  cases seen with
  | some value => exact extends_fail _
  | none => exact h.bind fun value => extends_pure (some value)

/-- The elements of an array up to its closing bracket. -/
theorem closes_elements {element element' : Reader α} (h : Extends element element')
    (hfuel : fuel ≤ fuel') (first : Bool) :
    Closes (elements element fuel first) (elements element' fuel' first) := by
  -- on the fuel for the shorter text, of which the longer one has at least as much
  induction fuel generalizing fuel' first with
  | zero => exact closes_fail _
  | succ fuel ih =>
    obtain _ | fuel' := fuel'
    · exact absurd hfuel (Nat.not_succ_le_zero fuel)
    have hrest := ih (Nat.le_of_succ_le_succ hfuel)
    have helement : ∀ first, Closes
        (do let value ← element; return value :: (← elements element fuel first))
        (do let value ← element'; return value :: (← elements element' fuel' first)) := by
      intro first
      refine h.bind_closes fun value => ?_
      rw [bind_pure_comp, bind_pure_comp]
      exact (hrest first).map (value :: ·)
    rw [elements, elements]
    refine closes_of_next fun c cs => .ite (fun _ => closesOn_drop [] c cs) fun _ => ?_
    refine .ite (fun _ => ?_) fun _ => .ite (fun _ => (helement false).on _) fun _ =>
      (closes_fail _).on _
    -- behind a comma there must be an element
    have hcomma := extends_drop.bind_closes fun _ => closes_of_next fun c cs =>
      .ite (p := c = Bytes.ascii ']') (fun _ => (closes_fail fail).on (c :: cs)) fun _ =>
        (helement first).on (c :: cs)
    exact hcomma.on _

/-- An array ends with its bracket. -/
theorem closes_array {element element' : Reader α} (h : Extends element element')
    (hfuel : fuel ≤ fuel') : Closes (array element fuel) (array element' fuel') :=
  (closes_expect _).extends.bind_closes fun _ => closes_elements h hfuel true

/-- The members of an object up to its closing brace. -/
theorem closes_members {member member' : String → σ → Reader σ}
    (h : ∀ name state, Extends (member name state) (member' name state)) (hfuel : fuel ≤ fuel')
    (first : Bool) (state : σ) :
    Closes (members member fuel first state) (members member' fuel' first state) := by
  -- on the fuel for the shorter text, as for the elements
  induction fuel generalizing fuel' first state with
  | zero => exact closes_fail _
  | succ fuel ih =>
    obtain _ | fuel' := fuel'
    · exact absurd hfuel (Nat.not_succ_le_zero fuel)
    have hmember : Closes
        (do
          let name ← text
          expect (Bytes.ascii ':')
          members member fuel false (← member name state))
        (do
          let name ← text
          expect (Bytes.ascii ':')
          members member' fuel' false (← member' name state)) :=
      extends_text.bind_closes fun name => (closes_expect _).extends.bind_closes fun _ =>
        (h name state).bind_closes fun state => ih (Nat.le_of_succ_le_succ hfuel) false state
    rw [members, members]
    refine closes_of_next fun c cs => .ite (fun _ => closesOn_drop state c cs) fun _ => ?_
    refine .ite (fun _ => ?_) fun _ => (closes_fail _).on _
    cases first with
    | true => exact hmember.on _
    | false => exact (extends_drop.bind_closes fun _ => hmember).on _

/-- An object ends with its closing brace, however much text its members have to see. -/
theorem closes_object {member member' : String → σ → Reader σ}
    (h : ∀ name state, Extends (member name state) (member' name state)) (hfuel : fuel ≤ fuel')
    (state : σ) : Closes (object member fuel state) (object member' fuel' state) :=
  (closes_expect _).extends.bind_closes fun _ => closes_members h hfuel true state

/-- A value that is passed over is so in a longer text, of whatever kind it is. -/
theorem extends_skip {depth depth' : Nat} (h : depth ≤ depth') :
    Extends (skip depth) (skip depth') := by
  induction depth generalizing depth' with
  | zero => exact extends_fail _
  | succ depth ih =>
    obtain _ | depth' := depth'
    · exact absurd h (Nat.not_succ_le_zero depth)
    have hle := Nat.le_of_succ_le_succ h
    -- elements and members are passed over with one level less
    have hnested := ih hle
    rw [skip, skip]
    refine extends_next.bind fun c => .ite (extends_text.bind fun _ => extends_pure ()) ?_
    refine .ite ((closes_array hnested hle).extends.bind fun _ => extends_pure ()) ?_
    refine .ite (closes_object (fun _ _ => hnested) hle ()).extends ?_
    exact .ite (extends_fail _) extends_skipPlain

end Values

/-- A document is a value with nothing but blanks behind it. -/
theorem document_eq_some_iff {reader : Nat → Reader α} {text : Bytes} {value : α} :
    document reader text = some value ↔ ∃ rest,
      reader (text.length + 1) text = some (value, rest) ∧ ∀ c ∈ rest, isBlank c = true := by
  rw [document]
  cases reader (text.length + 1) text with
  | none => simp
  | some read =>
    obtain ⟨value', rest⟩ := read
    dsimp only
    rw [Option.ite_none_right_eq_some, List.all_eq_true]
    constructor
    · rintro ⟨hblanks, ⟨⟩⟩
      exact ⟨rest, rfl, hblanks⟩
    · rintro ⟨_, ⟨⟩, hblanks⟩
      exact ⟨hblanks, rfl⟩

/-- If a text is read, then a longer one is only if nothing but blanks was added, and for the same
value. -/
theorem document_append {reader : Nat → Reader α}
    (h : ∀ fuel fuel', fuel ≤ fuel' → Closes (reader fuel) (reader fuel')) {text more : Bytes}
    {value value' : α} (hread : document reader text = some value)
    (hread' : document reader (text ++ more) = some value') :
    value' = value ∧ ∀ c ∈ more, isBlank c = true := by
  obtain ⟨rest, htext, -⟩ := document_eq_some_iff.1 hread
  obtain ⟨rest', hlonger, hblanks⟩ := document_eq_some_iff.1 hread'
  -- the fuel is counted from the text
  have hfuel : text.length + 1 ≤ (text ++ more).length + 1 := by
    rw [List.length_append]
    omega
  obtain ⟨-, hmore⟩ := (h _ _ hfuel).on text value rest htext
  obtain ⟨rfl, rfl⟩ := Prod.mk.inj (Option.some.inj ((hmore more).symm.trans hlonger))
  exact ⟨rfl, fun c hc => hblanks c (List.mem_append_right rest hc)⟩

end SecureKit.Json.Reader
