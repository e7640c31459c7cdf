import SecureKit.Fan.SpeedMap

/-!
# Speed Maps Made from Degrees

A speed map is made from pairs of whole degrees and speeds, whose thresholds and speeds are cut to
what a step can hold. This makes no difference to the speeds it gives: no temperature lies above the
greatest threshold a step can have, so that a step whose threshold was cut applies as little as it
would with the exact one.

* `SpeedMap.Gives` — the speed that pairs give at a temperature, by exact arithmetic.
* `SpeedMap.threshold_lt_iff` — cutting a threshold does not move it across a temperature.
* `SpeedMap.gives_speedFor` — the search from the last step finds the pair that counts.
* `SpeedMap.ofDegrees_faithful` — maps of rising degrees are faithful, and rise if their speeds do.
-/

namespace SecureKit.SpeedMap

/-- The speed that pairs of degrees and speed give at a temperature in thousandths of a degree, by
exact arithmetic. -/
inductive Gives (pairs : List (UInt32 × UInt32)) (temperature : Int) : Nat → Prop
  /-- No pair lies below the temperature. -/
  | still (h : ∀ pair ∈ pairs, temperature ≤ 1000 * (pair.1.toNat : Int)) :
    Gives pairs temperature 0
  /-- Of the pairs that lie below the temperature, the one with the greatest degrees gives the
  speed, up to the highest that a fan can be set to. -/
  | driven (pair : UInt32 × UInt32) (hmem : pair ∈ pairs)
    (hbelow : 1000 * (pair.1.toNat : Int) < temperature)
    (hgreatest : ∀ other ∈ pairs, 1000 * (other.1.toNat : Int) < temperature →
      other.1 ≤ pair.1) :
    Gives pairs temperature (min pair.2.toNat rpmMax)

/-- A speed is cut at the largest there is. -/
theorem toNat_rpm_ofDegrees (degrees rpm : UInt32) :
    (Entry.ofDegrees degrees rpm).rpm.toNat = min rpm.toNat rpmMax :=
  UInt16.toNat_ofNat_of_lt' (Nat.lt_of_le_of_lt (Nat.min_le_right _ _) (by decide))

/-- A product that does not fit into a word is beyond all temperatures anyway. -/
theorem threshold_ofDegrees (degrees rpm : UInt32) :
    (Entry.ofDegrees degrees rpm).threshold =
      ((min (1000 * degrees.toNat) thresholdMax : Nat) : Int) := by
  have hle : thresholdMax ≤ UInt32.size - 1 := by decide
  have hthousand : (1000 : UInt32).toNat = 1000 := rfl
  show min ((Word.saturatingMul degrees 1000).toNat : Int) thresholdMax = _
  rw [Word.toNat_saturatingMul, hthousand]
  omega

/-- A step applies above a temperature just if its exact threshold lies below it. -/
theorem threshold_lt_iff (degrees rpm : UInt32) (temperature : Int32) :
    (Entry.ofDegrees degrees rpm).threshold < temperature.toInt ↔
      1000 * (degrees.toNat : Int) < temperature.toInt := by
  have hle : temperature.toInt ≤ thresholdMax := Int.le_of_lt_add_one temperature.toInt_lt
  rw [threshold_ofDegrees]
  omega

/-- A step is looked for with exact arithmetic as well as with cut thresholds. -/
theorem toNat_speedFor_ofDegrees (pairs : List (UInt32 × UInt32)) (temperature : Int32) :
    ((ofDegrees pairs).speedFor temperature.toInt).toNat =
      ((pairs.take entriesMax).reverse.find? fun pair =>
        decide (1000 * (pair.1.toNat : Int) < temperature.toInt)).elim 0
        fun pair => min pair.2.toNat rpmMax := by
  have hfind : (ofDegrees pairs).entries.reverse.find? (·.threshold < temperature.toInt) =
      ((pairs.take entriesMax).reverse.find? fun pair =>
        decide (1000 * (pair.1.toNat : Int) < temperature.toInt)).map
        fun pair => Entry.ofDegrees pair.1 pair.2 := by
    rw [ofDegrees, ← List.map_reverse, List.find?_map]
    simp only [Function.comp_def, threshold_lt_iff]
  rw [speedFor, hfind]
  cases (pairs.take entriesMax).reverse.find? _ with
  | none => rfl
  | some pair => exact toNat_rpm_ofDegrees pair.1 pair.2

/-- Of rising pairs, the last that lies below the temperature is the one with the greatest
degrees. -/
theorem gives_find? {pairs : List (UInt32 × UInt32)} (hdegrees : pairs.Pairwise (·.1 < ·.1))
    (temperature : Int) :
    Gives pairs temperature
      ((pairs.reverse.find? fun pair => decide (1000 * (pair.1.toNat : Int) < temperature)).elim 0
        fun pair => min pair.2.toNat rpmMax) := by
  cases hfind : pairs.reverse.find?
      fun pair => decide (1000 * (pair.1.toNat : Int) < temperature) with
  | none =>
    refine .still fun pair hmem => ?_
    simpa using List.find?_eq_none.1 hfind pair (List.mem_reverse.2 hmem)
  | some pair =>
    obtain ⟨hbelow, later, earlier, hreverse, hlater⟩ := List.find?_eq_some_iff_append.1 hfind
    -- what the search has passed over lies behind the pair, and does not apply
    have hpairs : pairs = earlier.reverse ++ pair :: later.reverse := by
      rw [← List.reverse_reverse pairs, hreverse]
      simp
    have hmem : pair ∈ pairs := by simp [hpairs]
    refine .driven pair hmem (by simpa using hbelow) fun other hother hbelow' => ?_
    rw [hpairs] at hother hdegrees
    rcases List.mem_append.1 hother with hearlier | hother
    · exact UInt32.le_of_lt
        ((List.pairwise_append.1 hdegrees).2.2 other hearlier pair List.mem_cons_self)
    rcases List.mem_cons.1 hother with rfl | hbehind
    · exact UInt32.le_refl _
    · have hpassed := hlater other (List.mem_reverse.1 hbehind)
      simp [hbelow'] at hpassed

/-- With more degrees comes at least as much speed, if both rise from pair to pair. -/
theorem rpm_le_of_degrees_le {pairs : List (UInt32 × UInt32)}
    (hdegrees : pairs.Pairwise (·.1 < ·.1)) (hrpm : pairs.Pairwise (·.2 ≤ ·.2))
    {pair other : UInt32 × UInt32} (hpair : pair ∈ pairs) (hother : other ∈ pairs)
    (hle : pair.1 ≤ other.1) : pair.2 ≤ other.2 := by
  obtain ⟨i, hi, rfl⟩ := List.getElem_of_mem hpair
  obtain ⟨j, hj, rfl⟩ := List.getElem_of_mem hother
  rcases Nat.lt_trichotomy i j with hlt | rfl | hgt
  · exact List.pairwise_iff_getElem.1 hrpm i j hi hj hlt
  · exact UInt32.le_refl _
  · exact absurd (List.pairwise_iff_getElem.1 hdegrees j i hj hi hgt) (UInt32.not_lt.2 hle)

/-- A map of rising pairs gives no less speed at a higher temperature. -/
theorem Gives.le {pairs : List (UInt32 × UInt32)} (hdegrees : pairs.Pairwise (·.1 < ·.1))
    (hrpm : pairs.Pairwise (·.2 ≤ ·.2)) {temperature temperature' : Int} {speed speed' : Nat}
    (h : Gives pairs temperature speed) (h' : Gives pairs temperature' speed')
    (hle : temperature ≤ temperature') : speed ≤ speed' := by
  cases h with
  | still => exact Nat.zero_le _
  | driven pair hmem hbelow _ =>
    have hbelow' := Int.lt_of_lt_of_le hbelow hle
    cases h' with
    | still hnone => exact absurd hbelow' (Int.not_lt.2 (hnone pair hmem))
    | driven pair' hmem' _ hgreatest =>
      -- the pair still lies below the temperature, so another one has at least its degrees
      have hspeed := rpm_le_of_degrees_le hdegrees hrpm hmem hmem' (hgreatest pair hmem hbelow')
      have hspeed' : pair.2.toNat ≤ pair'.2.toNat := UInt32.le_iff_toNat_le.1 hspeed
      omega

/-- A map of rising degrees is faithful: at every temperature it gives the speed of the pair with
the greatest degrees below it, by exact arithmetic, and zero if there is none. If the speeds rise as
well, a higher temperature never means less speed. Pairs for which there is no step do not count. -/
theorem ofDegrees_faithful (pairs : List (UInt32 × UInt32)) :
    ofDegrees pairs = ofDegrees (pairs.take entriesMax) ∧
      (pairs.length ≤ entriesMax → pairs.Pairwise (·.1 < ·.1) →
        (∀ temperature : Int32,
          Gives pairs temperature.toInt ((ofDegrees pairs).speedFor temperature.toInt).toNat) ∧
        (pairs.Pairwise (·.2 ≤ ·.2) → ∀ temperature temperature' : Int32,
          temperature ≤ temperature' →
          (ofDegrees pairs).speedFor temperature.toInt ≤
            (ofDegrees pairs).speedFor temperature'.toInt)) := by
  constructor
  · rw [ofDegrees, ofDegrees, List.take_take, Nat.min_self]
  intro hlength hdegrees
  have hgives (temperature : Int32) :
      Gives pairs temperature.toInt ((ofDegrees pairs).speedFor temperature.toInt).toNat := by
    rw [toNat_speedFor_ofDegrees, List.take_of_length_le hlength]
    exact gives_find? hdegrees _
  refine ⟨hgives, fun hrpm temperature temperature' hle => ?_⟩
  exact UInt16.le_iff_toNat_le.2
    ((hgives temperature).le hdegrees hrpm (hgives temperature') (Int32.le_iff_toInt_le.1 hle))

/-- Two of these thresholds are beyond all temperatures, one of them also as a word, and two of the
speeds are more than a fan can be set to. -/
theorem ofDegrees_faithful_cut :
    let pairs : List (UInt32 × UInt32) :=
      [(0, 0), (24, 1000), (2147483, 70000), (2147484, 80000), (4294968, 90000)]
    pairs.length ≤ entriesMax ∧ pairs.Pairwise (·.1 < ·.1) ∧ pairs.Pairwise (·.2 ≤ ·.2) ∧
      Gives pairs 2147483647 ((ofDegrees pairs).speedFor 2147483647).toNat ∧
      (ofDegrees pairs).speedFor 2147483647 = 65535 ∧
      (ofDegrees pairs).speedFor 24000 ≤ (ofDegrees pairs).speedFor 24001 := by
  intro pairs
  have hlength : pairs.length ≤ entriesMax := by decide
  have hdegrees : pairs.Pairwise (·.1 < ·.1) := by decide
  have hrpm : pairs.Pairwise (·.2 ≤ ·.2) := by decide
  obtain ⟨hgives, hle⟩ := (ofDegrees_faithful pairs).2 hlength hdegrees
  exact ⟨hlength, hdegrees, hrpm, hgives 2147483647, by decide,
    hle hrpm 24000 24001 (by decide)⟩

end SecureKit.SpeedMap
