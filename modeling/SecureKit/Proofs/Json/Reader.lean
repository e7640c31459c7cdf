import SecureKit.Proofs.Json.Tokens

/-!
# Reading JSON Values

What the readers of strings, numbers, arrays and objects make of the tokens of such values. An array
is refused if one of its elements is, and an object if one of its members is.

* `Reads.of_text` — names that need no escapes.
* `reads_natural` — numbers below a limit, and those above it.
* `reads_array`, `reads_object` — arrays and objects, element by element and member by member.
* `document_eq` — a text of nothing but one value.
-/

namespace SecureKit

namespace Decimal

theorem digits_zero : digits 0 = [Bytes.ascii '0'] := by
  rw [digits]
  rfl

/-- Only zero has a zero in front. -/
theorem exists_digits_eq_cons {n : Nat} (h : n ≠ 0) :
    ∃ c cs, digits n = c :: cs ∧ c ≠ Bytes.ascii '0' := by
  fun_induction digits n with
  | case1 n hn =>
    refine ⟨digit n, [], rfl, fun hdigit => h ?_⟩
    rw [← digitValue_digit hn, hdigit]
    rfl
  | case2 n hn ih =>
    obtain ⟨c, cs, hdigits, hc⟩ := ih (by omega)
    exact ⟨c, cs ++ [digit (n % 10)], by rw [hdigits, List.cons_append], hc⟩

end Decimal

namespace Json.Reader

variable {α β σ ι : Type}

/-- The text stands for itself between quotes. -/
def IsPlain (name : String) : Prop := ∀ c ∈ Bytes.ofText name, escaped c = [c]

instance (name : String) : Decidable (IsPlain name) := List.decidableBAll _ _

/-- A string without escapes ends at the first quote. -/
theorem closing?_append {content : Bytes} (h : ∀ c ∈ content, escaped c = [c]) (rest : Bytes) :
    closing? false (content ++ Bytes.ascii '\"' :: rest) = some (content, rest) := by
  induction content with
  | nil => rfl
  | cons c content ih =>
    obtain ⟨hc, hcontent⟩ := List.forall_mem_cons.1 h
    -- neither of the marks stands for itself, so the content has none of them
    have hplain : ¬(c = Bytes.ascii '\\' ∨ c = Bytes.ascii '\"') := by
      intro hmark
      rw [escaped, if_pos hmark] at hc
      cases hc
    rw [not_or] at hplain
    rw [List.cons_append, closing?]
    simp [hplain, ih hcontent]

/-- A name without escapes is quoted as it is. -/
theorem quoted_eq {name : String} (h : IsPlain name) :
    quoted name = Bytes.ascii '\"' :: (Bytes.ofText name ++ [Bytes.ascii '\"']) := by
  have hcontent : (Bytes.ofText name).flatMap escaped = Bytes.ofText name := by
    rw [List.flatMap_def, List.map_congr_left h, ← List.flatMap_def, List.flatMap_singleton']
  rw [quoted, hcontent, List.cons_append]

/-- A reader that takes a name. -/
theorem Reads.of_text {f : String → Reader α} {name : String} {tokens : List Bytes}
    {result : Option α} (hname : IsPlain name) (h : Reads (f name) tokens result) :
    Reads (text >>= f) (quoted name :: tokens) result := by
  intro more bytes hmore hbytes
  rw [quoted_eq hname, List.cons_append] at hbytes
  obtain ⟨rest, hrest, hnext⟩ := next_eq (by decide) hbytes
  obtain ⟨last, hlast, hread⟩ := h more rest hmore hrest
  refine ⟨last, hlast, ?_⟩
  rw [← hread, bind_apply, text, bind_apply, expect, bind_apply, hnext]
  simp only [Option.bind_some, if_true, List.cons_append, List.append_assoc, List.nil_append, drop,
    List.tail_cons, closing?_append hname, Bytes.text?_ofText, Option.bind_eq_bind, Option.pure_def]

theorem isDigit_of_isBlank (c : UInt8) : isBlank c = true → Decimal.isDigit c = false := by
  revert c
  exact Bytes.forall_of_fin (by decide +kernel)

theorem isDigit_of_isDelimiter (c : UInt8) : isDelimiter c = true → Decimal.isDigit c = false := by
  revert c
  exact Bytes.forall_of_fin (by decide +kernel)

/-- A digit may open a value. -/
theorem opens_of_isDigit (c : UInt8) : Decimal.isDigit c = true →
    isBlank c = false ∧ isDelimiter c = false ∧ c ≠ Bytes.ascii 'n' := by
  revert c
  exact Bytes.forall_of_fin (by decide +kernel)

/-- After a value comes no digit. -/
theorem isDigit_head {more : List Bytes} {rest : Bytes} (hends : Ends more) (h : Spaced more rest) :
    ∀ c ∈ rest.head?, Decimal.isDigit c = false := by
  cases h with
  | nil hblanks => exact fun c hc => isDigit_of_isBlank c (hblanks c (List.mem_of_mem_head? hc))
  | @cons blanks token text tokens hblanks htext =>
    cases blanks with
    | cons blank blanks =>
      rintro c ⟨⟩
      exact isDigit_of_isBlank blank (hblanks blank List.mem_cons_self)
    | nil =>
      obtain ⟨c, cs, rfl, hc⟩ := hends token rfl
      rintro c' ⟨⟩
      exact isDigit_of_isDelimiter _ hc

/-- A number is read if it is below the limit. -/
theorem reads_natural {limit : Nat} (hlimit : 0 < limit) (n : Nat) :
    Reads (natural limit) [Decimal.digits n] (if n < limit then some n else none) := by
  by_cases hzero : n = 0
  · subst hzero
    rw [if_pos hlimit, Decimal.digits_zero, natural]
    exact .of_drop (by decide) (if_pos rfl) (reads_pure 0)
  · intro more text hmore htext
    obtain ⟨c, cs, hdigits, hc⟩ := Decimal.exists_digits_eq_cons hzero
    have hall : ∀ c ∈ Decimal.digits n, Decimal.isDigit c = true :=
      fun _ => Decimal.isDigit_of_mem_digits
    have hblank : isBlank c = false :=
      (opens_of_isDigit c (hall c (hdigits ▸ List.mem_cons_self))).1
    rw [hdigits] at htext
    obtain ⟨rest, hrest, hnext⟩ := next_eq hblank htext
    -- what comes after the digits does not make the number longer
    have hstop : rest.takeWhile Decimal.isDigit = [] ∧ rest.dropWhile Decimal.isDigit = rest := by
      have hhead := isDigit_head hmore hrest
      cases rest with
      | nil => exact ⟨rfl, rfl⟩
      | cons c' rest =>
        have : Decimal.isDigit c' = false := hhead c' rfl
        simp [this]
    refine ⟨rest, hrest, ?_⟩
    rw [natural, bind_apply, hnext, Option.bind_some]
    dsimp only
    rw [if_neg hc, ← hdigits, List.takeWhile_append_of_pos hall, List.dropWhile_append_of_pos hall,
      hstop.1, hstop.2, List.append_nil, Decimal.value_digits]
    simp [hdigits, apply_ite]

theorem opens_digits (n : Nat) : Opens [Decimal.digits n] := by
  have hdigits : ∃ c cs, Decimal.digits n = c :: cs := by
    by_cases hzero : n = 0
    · exact ⟨_, [], hzero ▸ Decimal.digits_zero⟩
    · obtain ⟨c, cs, hdigits, -⟩ := Decimal.exists_digits_eq_cons hzero
      exact ⟨c, cs, hdigits⟩
  obtain ⟨c, cs, hdigits⟩ := hdigits
  have hdigit : Decimal.isDigit c = true :=
    Decimal.isDigit_of_mem_digits (n := n) (hdigits ▸ List.mem_cons_self)
  exact ⟨c, cs, [], by rw [hdigits], opens_of_isDigit c hdigit⟩

theorem opens_arrayTokens (elements : List (List Bytes)) : Opens (arrayTokens elements) :=
  ⟨_, [], _, rfl, by decide⟩

theorem opens_objectTokens (members : List (List Bytes)) : Opens (objectTokens members) :=
  ⟨_, [], _, rfl, by decide⟩

/-- A value that is not `null` is read as it is. -/
theorem Reads.nullable {reader : Reader α} {tokens : List Bytes} {result : Option α}
    (hopens : Opens tokens) (h : Reads reader tokens result) :
    Reads (nullable reader) tokens (result.map some) := by
  obtain ⟨c, cs, rest, rfl, hblank, -, hnull⟩ := hopens
  refine .of_next hblank ?_
  rw [if_neg hnull, bind_pure_comp]
  exact h.map some

/-- What is given by a member that may occur once, if it has not occurred. -/
def once? (seen result : Option α) : Option (Option α) :=
  match seen with
  | some _ => none
  | none => result.map some

/-- A member that may occur once is refused the second time. -/
theorem once?_bind_once? (seen first second : Option α) (next : Option α → Option β) :
    ((once? seen first).bind fun seen => (once? seen second).bind next) = none := by
  cases seen <;> cases first <;> rfl

/-- A member that may occur once is read as long as it has not occurred. -/
theorem Reads.once {reader : Reader α} {tokens : List Bytes} {result : Option α} (seen : Option α)
    (h : Reads reader tokens result) : Reads (once seen reader) tokens (once? seen result) := by
  cases seen with
  | some value => exact reads_fail tokens
  | none =>
    rw [Reader.once, bind_pure_comp]
    exact h.map some

theorem ne_of_isDelimiter {c mark : UInt8} (hc : isDelimiter c = false)
    (hmark : isDelimiter mark = true) : c ≠ mark := by
  rintro rfl
  rw [hc] at hmark
  cases hmark

section Array

variable {element : Reader α} {tokens : ι → List Bytes} {value : ι → Option α} {items : List ι}

/-- The first element is read, and then the others. -/
theorem Reads.cons {reader : Reader (List α)} {first others : List Bytes} {result : Option α}
    {results : Option (List α)} (h : Reads element first result) (hends : Ends others)
    (hothers : Reads reader others results) :
    Reads (do return (← element) :: (← reader)) (first ++ others)
      (do return (← result) :: (← results)) :=
  h.bind hends fun _ _ => hothers.bind_nil fun _ _ => reads_pure _

/-- After an element comes a comma or the closing mark. -/
theorem ends_followed {c : UInt8} (h : isDelimiter c = true) (items : List (List Bytes)) :
    Ends (followed items ++ [[c]]) := by
  cases items with
  | nil => exact ends_cons h [] []
  | cons item items => exact ends_cons (by decide) [] _

/-- The elements after the first one, and the end of the array. -/
theorem reads_elements {fuel : Nat} (hfuel : items.length < fuel)
    (h : ∀ item ∈ items, Opens (tokens item) ∧ Reads element (tokens item) (value item)) :
    Reads (elements element fuel false) (followed (items.map tokens) ++ [[Bytes.ascii ']']])
      (items.mapM value) := by
  induction items generalizing fuel with
  | nil =>
    obtain _ | fuel := fuel
    · exact absurd hfuel (Nat.not_lt_zero _)
    rw [elements]
    exact .of_drop (by decide) (if_pos rfl) (reads_pure [])
  | cons item items ih =>
    obtain _ | fuel := fuel
    · exact absurd hfuel (Nat.not_lt_zero _)
    obtain ⟨⟨hopens, hitem⟩, hitems⟩ := List.forall_mem_cons.1 h
    have hcons := hitem.cons (ends_followed (by decide) _)
      (ih (Nat.lt_of_succ_lt_succ hfuel) hitems)
    obtain ⟨c, cs, rest, htokens, hblank, hdelimiter, -⟩ := hopens
    rw [elements, List.map_cons, followed_cons, List.cons_append, List.append_assoc,
      List.mapM_cons]
    refine .of_drop (by decide) ((if_neg (by decide)).trans (if_pos rfl)) ?_
    rw [htokens] at hcons ⊢
    -- behind the comma the array must go on
    refine .of_next hblank ?_
    rw [if_neg (ne_of_isDelimiter hdelimiter (by decide))]
    exact hcons

/-- An array is read element by element. -/
theorem reads_array {fuel : Nat} (hfuel : items.length < fuel)
    (h : ∀ item ∈ items, Opens (tokens item) ∧ Reads element (tokens item) (value item)) :
    Reads (array element fuel) (arrayTokens (items.map tokens)) (items.mapM value) := by
  rw [array, arrayTokens]
  refine .of_expect (by decide) ?_
  obtain _ | fuel := fuel
  · exact absurd hfuel (Nat.not_lt_zero _)
  rw [elements]
  cases items with
  | nil => exact .of_drop (by decide) (if_pos rfl) (reads_pure [])
  | cons item items =>
    obtain ⟨⟨hopens, hitem⟩, hitems⟩ := List.forall_mem_cons.1 h
    have hcons := hitem.cons (ends_followed (by decide) _)
      (reads_elements (Nat.lt_of_succ_lt_succ hfuel) hitems)
    obtain ⟨c, cs, rest, htokens, hblank, hdelimiter, -⟩ := hopens
    rw [List.map_cons, separated, List.append_assoc, List.mapM_cons]
    rw [htokens] at hcons ⊢
    -- the first element does without a comma in front
    refine .of_next hblank ?_
    rw [if_neg (ne_of_isDelimiter hdelimiter (by decide)),
      if_neg (ne_of_isDelimiter hdelimiter (by decide)), if_pos rfl]
    exact hcons

end Array

section Object

variable {member : String → σ → Reader σ} {name : ι → String} {tokens : ι → List Bytes}
  {step : σ → ι → Option σ} {items : List ι}

/-- The members from a name on, where the loop has come to one. -/
theorem reads_member {reader : σ → Reader σ} {others : List Bytes} {item : ι} {state : σ}
    {results : σ → Option σ} (hname : IsPlain (name item))
    (h : Reads (member (name item) state) (tokens item) (step state item)) (hends : Ends others)
    (hothers : ∀ state, Reads (reader state) others (results state)) :
    Reads (do
        let name ← text
        expect (Bytes.ascii ':')
        reader (← member name state))
      (memberTokens (name item) (tokens item) ++ others) ((step state item).bind results) := by
  rw [memberTokens, List.cons_append, List.cons_append]
  refine .of_text hname (.of_expect (by decide) ?_)
  exact h.bind hends fun state _ => hothers state

/-- The members after the first one, and the end of the object. -/
theorem reads_members {fuel : Nat} (hfuel : items.length < fuel)
    (h : ∀ item ∈ items, IsPlain (name item) ∧
      ∀ state, Reads (member (name item) state) (tokens item) (step state item)) (state : σ) :
    Reads (members member fuel false state)
      (followed (items.map fun item => memberTokens (name item) (tokens item)) ++
        [[Bytes.ascii '\x7d']])
      (items.foldlM step state) := by
  induction items generalizing fuel state with
  | nil =>
    obtain _ | fuel := fuel
    · exact absurd hfuel (Nat.not_lt_zero _)
    rw [members]
    exact .of_drop (by decide) (if_pos rfl) (reads_pure state)
  | cons item items ih =>
    obtain _ | fuel := fuel
    · exact absurd hfuel (Nat.not_lt_zero _)
    obtain ⟨⟨hname, hitem⟩, hitems⟩ := List.forall_mem_cons.1 h
    rw [members, List.map_cons, followed_cons, List.cons_append, List.append_assoc,
      List.foldlM_cons]
    refine .of_drop (by decide) ((if_neg (by decide)).trans (if_pos rfl)) ?_
    exact reads_member hname (hitem state) (ends_followed (by decide) _)
      (ih (Nat.lt_of_succ_lt_succ hfuel) hitems)

/-- An object is read member by member. -/
theorem reads_object {fuel : Nat} (hfuel : items.length < fuel)
    (h : ∀ item ∈ items, IsPlain (name item) ∧
      ∀ state, Reads (member (name item) state) (tokens item) (step state item)) (state : σ) :
    Reads (object member fuel state)
      (objectTokens (items.map fun item => memberTokens (name item) (tokens item)))
      (items.foldlM step state) := by
  rw [object, objectTokens]
  refine .of_expect (by decide) ?_
  obtain _ | fuel := fuel
  · exact absurd hfuel (Nat.not_lt_zero _)
  rw [members]
  cases items with
  | nil => exact .of_drop (by decide) (if_pos rfl) (reads_pure state)
  | cons item items =>
    obtain ⟨⟨hname, hitem⟩, hitems⟩ := List.forall_mem_cons.1 h
    have hmember := reads_member hname (hitem state) (ends_followed (by decide) _)
      (reads_members (Nat.lt_of_succ_lt_succ hfuel) hitems)
    rw [List.map_cons, separated, List.append_assoc, List.foldlM_cons]
    rw [memberTokens, quoted_eq hname, List.cons_append] at hmember ⊢
    -- the quote of the name is looked at first, and stays for the name
    refine .of_next (by decide) ?_
    rw [if_neg (by decide), if_pos (by decide)]
    exact hmember

/-- Members that can be taken in either order may stand in any order. -/
theorem foldlM_perm
    (hcomm : ∀ state a b, (step state a).bind (step · b) = (step state b).bind (step · a))
    {items' : List ι} (h : items.Perm items') (state : σ) :
    items.foldlM step state = items'.foldlM step state := by
  induction h generalizing state with
  | nil => rfl
  | cons item _ ih =>
    rw [List.foldlM_cons, List.foldlM_cons]
    exact congrArg _ (funext ih)
  | swap a b items =>
    simp only [List.foldlM_cons, Option.bind_eq_bind, ← Option.bind_assoc]
    rw [hcomm]
  | trans _ _ ih ih' => rw [ih, ih']

/-- A member that may be absent leaves the state as it is then. -/
theorem foldlM_toList {state : σ} {kind : α → ι} {read : α → Option β} {put : Option β → σ}
    (hnone : put none = state)
    (hsome : ∀ value, step state (kind value) = (read value).map (put ∘ some)) (value : Option α) :
    (value.map kind).toList.foldlM step state = (value.mapM read).map put := by
  cases value with
  | none => exact congrArg some hnone.symm
  | some value =>
    rw [Option.map_some, Option.toList_some, List.foldlM_cons, hsome]
    cases hread : read value <;> simp [hread]

end Object

/-- A text of one value and nothing else. -/
theorem document_eq {reader : Nat → Reader α} {tokens : List Bytes} {bytes : Bytes}
    {result : Option α} (hbytes : Spaced tokens bytes)
    (h : ∀ fuel, size tokens < fuel → Reads (reader fuel) tokens result) :
    document reader bytes = result := by
  have hfuel : size tokens < bytes.length + 1 := Nat.lt_succ_of_le hbytes.size_le
  rw [← List.append_nil tokens] at hbytes
  obtain ⟨rest, hrest, hread⟩ := h _ hfuel [] bytes ends_nil hbytes
  rw [document, hread]
  cases result with
  | none => rfl
  | some value =>
    obtain ⟨hblanks⟩ := hrest
    exact if_pos (List.all_eq_true.2 hblanks)

end Json.Reader

end SecureKit
