/-!
# Checked 32-Bit Arithmetic

Operations on 32-bit words that fail where the exact result is not a word, or give the nearest word
there, so that nothing wraps around.

* `bind_ofNat?_add?` — a chain of additions fails just when its exact sum is too large.
* `Shows.bind` — a calculation in which nothing is too large or negative, step by step.
-/

namespace SecureKit.Word

/-- The word for a number, if it is small enough. -/
def ofNat? (n : Nat) : Option UInt32 := if n < UInt32.size then some (UInt32.ofNat n) else none

/-- The sum of two words. -/
def add? (a b : UInt32) : Option UInt32 := ofNat? (a.toNat + b.toNat)

/-- The product of two words. -/
def mul? (a b : UInt32) : Option UInt32 := ofNat? (a.toNat * b.toNat)

/-- The difference of two words. -/
def sub? (a b : UInt32) : Option UInt32 := if b ≤ a then some (a - b) else none

/-- The difference of two words, or zero if there is none. -/
def saturatingSub (a b : UInt32) : UInt32 := if b ≤ a then a - b else 0

/-- The product of two words, or the largest word if it is not one. -/
def saturatingMul (a b : UInt32) : UInt32 := (mul? a b).getD (UInt32.ofNat (UInt32.size - 1))

/-- A number is made into the word that has it as its value. -/
theorem ofNat?_eq_some_iff {n : Nat} {word : UInt32} :
    ofNat? n = some word ↔ word.toNat = n := by
  unfold ofNat?
  split
  next h =>
    rw [Option.some.injEq]
    constructor
    · rintro rfl
      exact UInt32.toNat_ofNat_of_lt' h
    · rintro rfl
      exact UInt32.ofNat_toNat
  next h =>
    constructor
    · nofun
    · rintro rfl
      exact absurd word.toNat_lt_size h

/-- Only a number that is too large is not a word. -/
theorem ofNat?_eq_none_iff {n : Nat} : ofNat? n = none ↔ UInt32.size ≤ n := by
  simp [ofNat?]

/-- A number that fits into a word comes back from it. -/
theorem map_toNat_ofNat? (n : Nat) :
    (ofNat? n).map UInt32.toNat = if n < UInt32.size then some n else none := by
  unfold ofNat?
  split
  next h => rw [Option.map_some, UInt32.toNat_ofNat_of_lt' h]
  next => rfl

/-- Words are subtracted like numbers, down to zero. -/
theorem toNat_saturatingSub (a b : UInt32) : (saturatingSub a b).toNat = a.toNat - b.toNat := by
  unfold saturatingSub
  split
  next h => exact UInt32.toNat_sub_of_le a b h
  next h =>
    have hlt : a.toNat < b.toNat := UInt32.lt_iff_toNat_lt.1 (UInt32.not_le.1 h)
    rw [UInt32.toNat_zero]
    omega

/-- Words are multiplied like numbers, up to the largest word. -/
theorem toNat_saturatingMul (a b : UInt32) :
    (saturatingMul a b).toNat = min (a.toNat * b.toNat) (UInt32.size - 1) := by
  rw [saturatingMul, mul?, ofNat?]
  split
  next h =>
    rw [Option.getD_some, UInt32.toNat_ofNat_of_lt' h]
    omega
  next h =>
    rw [Option.getD_none, UInt32.toNat_ofNat_of_lt' (by decide)]
    omega

/-- Adding to a number that may be too large fails just when the sum is. -/
theorem bind_ofNat?_add? (n : Nat) (b : UInt32) :
    (ofNat? n).bind (add? · b) = ofNat? (n + b.toNat) := by
  cases h : ofNat? n with
  | none =>
    have hsize := ofNat?_eq_none_iff.1 h
    exact (ofNat?_eq_none_iff.2 (by omega)).symm
  | some word =>
    obtain rfl := ofNat?_eq_some_iff.1 h
    rfl

/-- The same with another operation behind the sum. -/
theorem bind_ofNat?_add?_bind (n : Nat) (b : UInt32) (next : UInt32 → Option UInt32) :
    ((ofNat? n).bind fun a => (add? a b).bind next) = (ofNat? (n + b.toNat)).bind next := by
  rw [← bind_ofNat?_add?, Option.bind_assoc]

/-- A calculation gives the word for `n`, so that none of its operations fails. -/
def Shows (result : Option UInt32) (n : Nat) : Prop := ∃ word, result = some word ∧ word.toNat = n

section Shows

variable {a b : UInt32} {m n : Nat}

/-- A calculation goes on with the word for the number that it has come to. -/
theorem Shows.bind {result : Option UInt32} {next : UInt32 → Option UInt32}
    (h : Shows result m) (hnext : ∀ word, word.toNat = m → Shows (next word) n) :
    Shows (result.bind next) n := by
  obtain ⟨word, rfl, hword⟩ := h
  exact hnext word hword

theorem shows_ofNat? (h : n < UInt32.size) : Shows (ofNat? n) n :=
  ⟨UInt32.ofNat n, if_pos h, UInt32.toNat_ofNat_of_lt' h⟩

theorem shows_add? (ha : a.toNat = m) (hb : b.toNat = n) (h : m + n < UInt32.size) :
    Shows (add? a b) (m + n) := by
  subst ha hb
  exact shows_ofNat? h

theorem shows_mul? (ha : a.toNat = m) (hb : b.toNat = n) (h : m * n < UInt32.size) :
    Shows (mul? a b) (m * n) := by
  subst ha hb
  exact shows_ofNat? h

theorem shows_sub? (ha : a.toNat = m) (hb : b.toNat = n) (h : n ≤ m) :
    Shows (sub? a b) (m - n) := by
  subst ha hb
  have hle : b ≤ a := UInt32.le_iff_toNat_le.2 h
  exact ⟨a - b, if_pos hle, UInt32.toNat_sub_of_le a b hle⟩

end Shows

end SecureKit.Word
