import SecureKit.Text.Bytes

/-!
# Base64 Text

Three bytes become four characters of the standard alphabet; a last group of one or two bytes is
filled up with `=`.

* `length_encode` — the text of `n` bytes has `(n + 2) / 3 * 4` characters.
* `decode_encode` — the text of some bytes reads back as them.
* `value?_eq_some_iff` — the characters of the alphabet, in their order.
-/

namespace SecureKit.Base64

/-- The character for the six low bits of `value`. -/
def symbol (value : Nat) : UInt8 :=
  let value := value % 64
  if value < 26 then Bytes.ascii 'A' + value.toUInt8
  else if value < 52 then Bytes.ascii 'a' + (value - 26).toUInt8
  else if value < 62 then Bytes.ascii '0' + (value - 52).toUInt8
  else if value = 62 then Bytes.ascii '+'
  else Bytes.ascii '/'

/-- The character that fills up a short last group. -/
def padding : UInt8 := Bytes.ascii '='

/-- The base64 text of `bytes`. -/
def encode : Bytes → Bytes
  | [] => []
  | [a] =>
    let bits := a.toNat * 65536
    [symbol (bits / 262144), symbol (bits / 4096), padding, padding]
  | [a, b] =>
    let bits := a.toNat * 65536 + b.toNat * 256
    [symbol (bits / 262144), symbol (bits / 4096), symbol (bits / 64), padding]
  | a :: b :: c :: rest =>
    let bits := a.toNat * 65536 + b.toNat * 256 + c.toNat
    symbol (bits / 262144) :: symbol (bits / 4096) :: symbol (bits / 64) :: symbol bits ::
      encode rest

/-- The six bits a character of the alphabet stands for. -/
def value? (c : UInt8) : Option Nat :=
  if Bytes.ascii 'A' ≤ c ∧ c ≤ Bytes.ascii 'Z' then some (c - Bytes.ascii 'A').toNat
  else if Bytes.ascii 'a' ≤ c ∧ c ≤ Bytes.ascii 'z' then some ((c - Bytes.ascii 'a').toNat + 26)
  else if Bytes.ascii '0' ≤ c ∧ c ≤ Bytes.ascii '9' then some ((c - Bytes.ascii '0').toNat + 52)
  else if c = Bytes.ascii '+' then some 62
  else if c = Bytes.ascii '/' then some 63
  else none

/-- The characters of the standard alphabet, in the order of the bits they stand for. -/
def alphabet : Bytes :=
  Bytes.ofText "ABCDEFGHIJKLMNOPQRSTUVWXYZabcdefghijklmnopqrstuvwxyz0123456789+/"

/-- The 24 bits of four sextets. -/
def join (a b c d : Nat) : Nat := a * 262144 + b * 4096 + c * 64 + d

/-- The three bytes of the 24 low bits of `bits`, most significant byte first. -/
def group (bits : Nat) : Bytes := [(bits / 65536).toUInt8, (bits / 256).toUInt8, bits.toUInt8]

/-- The first `count` bytes of 24 bits, if all bits after them are zero. -/
def leading? (count bits : Nat) : Option Bytes :=
  if bits % Nat.pow 256 (3 - count) = 0 then some ((group bits).take count) else none

/-- The bytes that a base64 text stands for. Padding stands in the last group only, and the bits it
leaves over are zero. -/
def decode : Bytes → Option Bytes
  | [] => some []
  | a :: b :: c :: d :: rest =>
    if rest = [] ∧ c = padding ∧ d = padding then do
      leading? 1 (join (← value? a) (← value? b) 0 0)
    else if rest = [] ∧ d = padding then do
      leading? 2 (join (← value? a) (← value? b) (← value? c) 0)
    else do
      -- a padding character elsewhere has no value, so it is refused here
      let bits := join (← value? a) (← value? b) (← value? c) (← value? d)
      return group bits ++ (← decode rest)
  | _ => none

/-- The number of characters in the base64 text of `size` bytes. -/
def encodedLength (size : Nat) : Nat := (size + 2) / 3 * 4

/-- Every started group of three bytes becomes four characters. -/
@[simp]
theorem length_encode (bytes : Bytes) : (encode bytes).length = encodedLength bytes.length := by
  fun_induction encode bytes with
  | case1 => rfl
  | case2 => simp [encodedLength]
  | case3 => simp [encodedLength]
  | case4 a b c rest bits ih => simp [ih, encodedLength]; omega

/-- Only the six low bits matter for a character. -/
@[simp]
theorem symbol_mod (value : Nat) : symbol (value % 64) = symbol value := by
  simp [symbol]

/-- A character stands for the six bits it was chosen for. -/
@[simp]
theorem value?_symbol (value : Nat) : value? (symbol value) = some (value % 64) := by
  have h : ∀ i : Fin 64, value? (symbol i) = some i.val := by decide
  simpa using h ⟨value % 64, Nat.mod_lt _ (by decide)⟩

/-- Padding is not a character of the alphabet. -/
@[simp]
theorem symbol_ne_padding (value : Nat) : symbol value ≠ padding := by
  intro h
  have h' := value?_symbol value
  have hp : value? padding = none := by decide
  simp [h, hp] at h'

/-- Three bytes come back from their 24 bits. -/
theorem group_eq {bits : Nat} {a b c : UInt8}
    (h : bits = a.toNat * 65536 + b.toNat * 256 + c.toNat) : group bits = [a, b, c] := by
  have ha := a.toNat_lt
  have hb := b.toNat_lt
  have hc := c.toNat_lt
  have byte {n : Nat} {x : UInt8} (h : n % 256 = x.toNat) : n.toUInt8 = x :=
    UInt8.toNat_inj.1 (by rw [← h]; exact UInt8.toNat_ofNat')
  rw [group, byte (x := a) (by omega), byte (x := b) (by omega), byte (x := c) (by omega)]

/-- The text of some bytes reads back as them. -/
@[simp]
theorem decode_encode (bytes : Bytes) : decode (encode bytes) = some bytes := by
  have h0 : (0 : UInt8).toNat = 0 := rfl
  fun_induction encode bytes with
  | case1 => rfl
  | case2 a bits =>
    have ha := a.toNat_lt
    have hjoin : join (bits / 262144 % 64) (bits / 4096 % 64) 0 0 = bits := by
      rw [join]
      omega
    have hgroup : group bits = [a, 0, 0] := group_eq (by omega)
    have hlead : leading? 1 bits = some [a] := by
      have hpadded : bits % 65536 = 0 := by omega
      rw [leading?, hgroup, if_pos hpadded, List.take_succ_cons, List.take_zero]
    rw [decode, if_pos ⟨rfl, rfl, rfl⟩, value?_symbol, Option.bind_eq_bind, Option.bind_some,
      value?_symbol, Option.bind_some, hjoin, hlead]
  | case3 a b bits =>
    have ha := a.toNat_lt
    have hb := b.toNat_lt
    have hjoin : join (bits / 262144 % 64) (bits / 4096 % 64) (bits / 64 % 64) 0 = bits := by
      rw [join]
      omega
    have hgroup : group bits = [a, b, 0] := group_eq (by omega)
    have hlead : leading? 2 bits = some [a, b] := by
      have hpadded : bits % 256 = 0 := by omega
      rw [leading?, hgroup, if_pos hpadded, List.take_succ_cons, List.take_succ_cons,
        List.take_zero]
    rw [decode, if_neg (by simp), if_pos ⟨rfl, rfl⟩, value?_symbol, Option.bind_eq_bind,
      Option.bind_some, value?_symbol, Option.bind_some, value?_symbol, Option.bind_some, hjoin,
      hlead]
  | case4 a b c rest bits ih =>
    have ha := a.toNat_lt
    have hb := b.toNat_lt
    have hc := c.toNat_lt
    have hjoin : join (bits / 262144 % 64) (bits / 4096 % 64) (bits / 64 % 64) (bits % 64) =
        bits := by
      rw [join]
      omega
    have hgroup : group bits = [a, b, c] := group_eq (by omega)
    simp [decode, hjoin, hgroup, ih]

/-- A character stands for its place in the alphabet, and for nothing if it has none. -/
theorem value?_eq_some_iff {c : UInt8} {i : Nat} :
    value? c = some i ↔ alphabet[i]? = some c := by
  have hplace : ∀ c, ∀ i ∈ value? c, alphabet[i]? = some c :=
    Bytes.forall_of_fin (by decide +kernel)
  have hvalue : ∀ i : Fin 64, ∀ c ∈ alphabet[i.val]?, value? c = some i.val := by
    decide +kernel
  constructor
  · exact hplace c i
  · intro h
    have hi : i < alphabet.length := (List.getElem?_eq_some_iff.1 h).1
    exact hvalue ⟨i, hi⟩ c h

/-- All symbols are ASCII characters. -/
theorem symbol_lt (value : Nat) : symbol value < 0x80 := by
  have h : ∀ i : Fin 64, symbol i < 0x80 := by decide
  simpa using h ⟨value % 64, Nat.mod_lt _ (by decide)⟩

/-- Base64 text is ASCII. -/
theorem lt_of_mem_encode (bytes : Bytes) : ∀ c ∈ encode bytes, c < 0x80 := by
  have hpadding : padding < 0x80 := by decide
  fun_induction encode bytes with
  | case1 => exact List.forall_mem_nil _
  | case2 a bits => simp [symbol_lt, hpadding]
  | case3 a b bits => simp [symbol_lt, hpadding]
  | case4 a b c rest bits ih => simpa [symbol_lt] using ih

end SecureKit.Base64
