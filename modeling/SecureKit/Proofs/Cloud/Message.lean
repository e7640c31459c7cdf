import SecureKit.Cloud.Message
import SecureKit.Proofs.Json.Reader
import SecureKit.Timing.Word

/-!
# Reading Configuration Messages

A configuration message may be written with its members in any order and with any blanks, and with
numbers of any size. It is read for what was written if all of that is within the ranges of the
message, and not at all otherwise.

* `WrittenConfig.IsText` — the texts of a message.
* `WrittenConfig.Fits` — the messages within the ranges.
* `ofJson?_of_isText` — what is read from a text.
* `message?_written`, `fits_of_message?` — a message that fits is read, and no other one.
-/

namespace SecureKit

open Json Json.Reader

/-- A member of a speed override as it is written. -/
inductive OverrideMember where
  | fanSpeed (rpm : Nat)
  | duration (seconds : Nat)

/-- A member of a configuration message as it is written. -/
inductive ConfigMember where
  | speedMap (pairs : List (Nat × Nat))
  | speedOverride (members : List OverrideMember)
  | updateRate (millis : Nat)

/-- A speed override with numbers of any size. -/
structure WrittenOverride where
  rpm : Nat
  duration : Nat

/-- A configuration message with numbers of any size, and with a speed map of any length. -/
structure WrittenConfig where
  speedMap : Option (List (Nat × Nat))
  speedOverride : Option WrittenOverride
  updateRate : Option Nat

/-- A number of 16 bits. -/
def half? (n : Nat) : Option UInt16 := if n < UInt16.size then some (UInt16.ofNat n) else none

/-- The pair of degrees and speed that is read, if both numbers are words. -/
def pair? (pair : Nat × Nat) : Option (UInt32 × UInt32) := do
  return (← Word.ofNat? pair.1, ← Word.ofNat? pair.2)

/-- The two elements of a list of two. -/
def both? {α : Type} : List α → Option (α × α)
  | [first, second] => some (first, second)
  | _ => none

/-- The pairs that are read, if they are no more than a map has steps. -/
def pairs? (pairs : List (Nat × Nat)) : Option (List (UInt32 × UInt32)) := do
  let pairs ← pairs.mapM pair?
  if pairs.length ≤ SpeedMap.entriesMax then return pairs else none

namespace OverrideMember

def name : OverrideMember → String
  | fanSpeed _ => "fan-speed"
  | duration _ => "duration"

/-- The names of the members can be written without escapes. -/
theorem isPlain_name (member : OverrideMember) : IsPlain member.name := by
  cases member with
  | fanSpeed => exact (by decide : IsPlain "fan-speed")
  | duration => exact (by decide : IsPlain "duration")

/-- The tokens of the value. -/
def value : OverrideMember → List Bytes
  | fanSpeed n | duration n => [Decimal.digits n]

/-- The tokens of the member. -/
def tokens (member : OverrideMember) : List Bytes := memberTokens member.name member.value

/-- Add the member to those read before. -/
def add : Option UInt16 × Option UInt32 → OverrideMember → Option (Option UInt16 × Option UInt32)
  | (rpm, seconds), fanSpeed n => return (← once? rpm (half? n), seconds)
  | (rpm, seconds), duration n => return (rpm, ← once? seconds (Word.ofNat? n))

/-- The order in which two members of an override are taken in does not matter. -/
theorem add_comm (state : Option UInt16 × Option UInt32) (a b : OverrideMember) :
    (add state a).bind (add · b) = (add state b).bind (add · a) := by
  cases a <;> cases b <;>
    simp only [add, Option.pure_def, Option.bind_eq_bind, Option.bind_assoc, Option.bind_some,
      once?_bind_once?]
  -- members of two kinds are independent of each other
  all_goals exact Option.bind_comm ..

end OverrideMember

/-- The override that is read from its members. -/
def override? (members : List OverrideMember) : Option SpeedOverride := do
  match ← members.foldlM OverrideMember.add (none, none) with
  | (some rpm, some duration) => return { rpm, duration }
  | _ => none

namespace ConfigMember

def name : ConfigMember → String
  | speedMap _ => "fan-speed-map"
  | speedOverride _ => "override"
  | updateRate _ => "update-rate"

theorem isPlain_name (member : ConfigMember) : IsPlain member.name := by
  cases member with
  | speedMap => exact (by decide : IsPlain "fan-speed-map")
  | speedOverride => exact (by decide : IsPlain "override")
  | updateRate => exact (by decide : IsPlain "update-rate")

/-- The tokens of a pair. -/
def pairTokens (pair : Nat × Nat) : List Bytes :=
  arrayTokens ([pair.1, pair.2].map fun n => [Decimal.digits n])

/-- The tokens of the value. -/
def value : ConfigMember → List Bytes
  | speedMap pairs => arrayTokens (pairs.map pairTokens)
  | speedOverride members => objectTokens (members.map OverrideMember.tokens)
  | updateRate n => [Decimal.digits n]

/-- The tokens of the member. -/
def tokens (member : ConfigMember) : List Bytes := memberTokens member.name member.value

/-- Add the member to those read before. -/
def add (draft : ConfigMessage.Draft) : ConfigMember → Option ConfigMessage.Draft
  | speedMap pairs =>
    return { draft with speedMap := ← once? draft.speedMap ((pairs? pairs).map some) }
  | speedOverride members =>
    return { draft with
      speedOverride := ← once? draft.speedOverride ((override? members).map some) }
  | updateRate n =>
    return { draft with updateRate := ← once? draft.updateRate ((Word.ofNat? n).map some) }

/-- The order in which two members of a configuration are taken in does not matter. -/
theorem add_comm (draft : ConfigMessage.Draft) (a b : ConfigMember) :
    (add draft a).bind (add · b) = (add draft b).bind (add · a) := by
  cases a <;> cases b <;>
    simp only [add, Option.pure_def, Option.bind_eq_bind, Option.bind_assoc, Option.bind_some,
      once?_bind_once?]
  all_goals exact Option.bind_comm ..

end ConfigMember

section Reads

open ConfigMessage

/-- A number is read as a word if it fits. -/
theorem reads_word (n : Nat) : Reads word [Decimal.digits n] (Word.ofNat? n) := by
  have hresult : Word.ofNat? n = (if n < UInt32.size then some n else none).map UInt32.ofNat := by
    rw [Word.ofNat?, apply_ite (Option.map _)]
    rfl
  rw [hresult]
  exact (reads_natural (by decide) n).map _

theorem reads_half (n : Nat) :
    Reads (UInt16.ofNat <$> natural UInt16.size) [Decimal.digits n] (half? n) := by
  have hresult : half? n = (if n < UInt16.size then some n else none).map UInt16.ofNat := by
    rw [half?, apply_ite (Option.map _)]
    rfl
  rw [hresult]
  exact (reads_natural (by decide) n).map _

/-- A pair is read if both of its numbers fit. -/
theorem reads_pair {fuel : Nat} (pair : Nat × Nat)
    (hfuel : size (ConfigMember.pairTokens pair) < fuel) :
    Reads (readPair fuel) (ConfigMember.pairTokens pair) (pair? pair) := by
  have hlength := length_lt_size_arrayTokens ([pair.1, pair.2].map fun n => [Decimal.digits n])
  rw [List.length_map] at hlength
  have harray := reads_array (Nat.lt_trans hlength hfuel) fun n _ => ⟨opens_digits n, reads_word n⟩
  -- the array may have any number of elements, and only two of them make a pair
  have hresult : pair? pair = ([pair.1, pair.2].mapM Word.ofNat?).bind both? := by
    simp only [pair?, List.mapM_cons, List.mapM_nil]
    cases Word.ofNat? pair.1 <;> cases Word.ofNat? pair.2 <;> rfl
  rw [hresult, readPair]
  refine harray.bind_nil fun numbers _ => ?_
  match numbers with
  | [degrees, rpm] => exact reads_pure _
  | [] | [_] | _ :: _ :: _ :: _ => exact reads_fail _

/-- A speed map is read if it has room for all pairs, and all of them fit. -/
theorem reads_speedMap {fuel : Nat} (pairs : List (Nat × Nat))
    (hfuel : size (arrayTokens (pairs.map ConfigMember.pairTokens)) < fuel) :
    Reads (readSpeedMap fuel) (arrayTokens (pairs.map ConfigMember.pairTokens)) (pairs? pairs) := by
  have hlength := length_lt_size_arrayTokens (pairs.map ConfigMember.pairTokens)
  rw [List.length_map] at hlength
  have harray := reads_array (Nat.lt_trans hlength hfuel) fun pair hpair =>
    ⟨opens_arrayTokens _, reads_pair pair
      (Nat.lt_trans (size_lt_size_arrayTokens (List.mem_map_of_mem hpair)) hfuel)⟩
  rw [readSpeedMap, pairs?]
  refine harray.bind_nil fun pairs _ => ?_
  split
  · exact reads_pure _
  · exact reads_fail _

/-- A member of an override is read by its name, once. -/
theorem reads_overrideMember (depth : Nat) (member : OverrideMember)
    (state : Option UInt16 × Option UInt32) :
    Reads (readOverrideMember depth member.name state) member.value
      (OverrideMember.add state member) := by
  cases member with
  | fanSpeed n => exact ((reads_half n).once state.1).bind_nil fun _ _ => reads_pure _
  | duration n => exact ((reads_word n).once state.2).bind_nil fun _ _ => reads_pure _

/-- An override is read as what its members say together. -/
theorem reads_override {fuel : Nat} (members : List OverrideMember)
    (hfuel : size (objectTokens (members.map OverrideMember.tokens)) < fuel) :
    Reads (readOverride fuel) (objectTokens (members.map OverrideMember.tokens))
      (override? members) := by
  have hlength := length_lt_size_objectTokens (members.map OverrideMember.tokens)
  rw [List.length_map] at hlength
  have hobject := reads_object (Nat.lt_trans hlength hfuel)
    (fun member _ => ⟨member.isPlain_name, reads_overrideMember fuel member⟩) (none, none)
  rw [readOverride, override?]
  refine hobject.bind_nil fun state _ => ?_
  match state with
  | (some rpm, some duration) => exact reads_pure _
  | (none, _) | (some _, none) => exact reads_fail _

/-- A member of a configuration is read by its name, once. -/
theorem reads_configMember {fuel : Nat} (member : ConfigMember) (hfuel : size member.value < fuel)
    (draft : Draft) :
    Reads (draft.readMember fuel member.name) member.value (ConfigMember.add draft member) := by
  cases member with
  | speedMap pairs =>
    have hvalue := (reads_speedMap pairs hfuel).nullable (opens_arrayTokens _)
    exact (hvalue.once draft.speedMap).bind_nil fun _ _ => reads_pure _
  | speedOverride members =>
    have hvalue := (reads_override members hfuel).nullable (opens_objectTokens _)
    exact (hvalue.once draft.speedOverride).bind_nil fun _ _ => reads_pure _
  | updateRate n =>
    have hvalue := (reads_word n).nullable (opens_digits n)
    exact (hvalue.once draft.updateRate).bind_nil fun _ _ => reads_pure _

/-- What is read from a text with some members. -/
theorem ofJson?_of_spaced {members : List ConfigMember} {text : Bytes}
    (h : Spaced (objectTokens (members.map ConfigMember.tokens)) text) :
    ofJson? text = (members.foldlM ConfigMember.add {}).map Draft.finish := by
  have hlength := length_lt_size_objectTokens (members.map ConfigMember.tokens)
  rw [List.length_map] at hlength
  have hread : ∀ fuel, size (objectTokens (members.map ConfigMember.tokens)) < fuel →
      Reads (object (Draft.readMember fuel) fuel {})
        (objectTokens (members.map ConfigMember.tokens))
        (members.foldlM ConfigMember.add {}) := by
    intro fuel hfuel
    -- the value of a member is shorter than the whole object, so the fuel is enough for it as well
    refine reads_object (Nat.lt_trans hlength hfuel) (fun member hmember => ?_) _
    have hmem : member.tokens ∈ members.map ConfigMember.tokens := List.mem_map_of_mem hmember
    have hsize := Nat.lt_trans (size_lt_size_objectTokens hmem) hfuel
    exact ⟨member.isPlain_name, reads_configMember member hsize⟩
  rw [ofJson?, document_eq h hread]

end Reads

/-- The members of an override. -/
def WrittenOverride.members (speed : WrittenOverride) : List OverrideMember :=
  [.fanSpeed speed.rpm, .duration speed.duration]

/-- The override that is read, if its numbers are within their ranges. -/
def WrittenOverride.override? (speed : WrittenOverride) : Option SpeedOverride := do
  return { rpm := ← half? speed.rpm, duration := ← Word.ofNat? speed.duration }

/-- The members of an override may stand in any order. -/
theorem override?_of_perm {speed : WrittenOverride} {members : List OverrideMember}
    (h : members.Perm speed.members) : override? members = speed.override? := by
  rw [override?, foldlM_perm OverrideMember.add_comm h, WrittenOverride.override?]
  simp only [WrittenOverride.members, List.foldlM_cons, List.foldlM_nil, OverrideMember.add, once?]
  cases half? speed.rpm <;> cases Word.ofNat? speed.duration <;> rfl

namespace WrittenConfig

/-- The members of a message, with those of the override in an order of their own. -/
def members (config : WrittenConfig) (order : List OverrideMember → List OverrideMember) :
    List ConfigMember :=
  (config.speedMap.map .speedMap).toList ++
    (config.speedOverride.map fun speed => .speedOverride (order speed.members)).toList ++
    (config.updateRate.map .updateRate).toList

/-- The text is one of the message: a JSON object of its members in any order, with any blanks. -/
def IsText (config : WrittenConfig) (text : Bytes) : Prop :=
  ∃ (order : List OverrideMember → List OverrideMember) (members : List ConfigMember),
    (∀ members, (order members).Perm members) ∧ members.Perm (config.members order) ∧
      Spaced (objectTokens (members.map ConfigMember.tokens)) text

/-- The message that is read, if all numbers are within their ranges and the map is not too long. -/
def message? (config : WrittenConfig) : Option ConfigMessage := do
  return {
    speedMap := ← config.speedMap.mapM pairs?
    speedOverride := ← config.speedOverride.mapM WrittenOverride.override?
    updateRate := ← config.updateRate.mapM Word.ofNat? }

section Members

variable {draft : ConfigMessage.Draft}

/-- A speed map that is there is taken over, and nothing is changed without one. -/
theorem foldlM_speedMap (h : draft.speedMap = none) (pairs : Option (List (Nat × Nat))) :
    (pairs.map ConfigMember.speedMap).toList.foldlM ConfigMember.add draft =
      (pairs.mapM pairs?).map fun pairs => { draft with speedMap := pairs.map some } := by
  refine foldlM_toList (by rw [Option.map_none, ← h]) (fun pairs => ?_) pairs
  rw [ConfigMember.add, h, once?]
  cases pairs? pairs <;> rfl

/-- An override that is there is taken over, with its members in any order. -/
theorem foldlM_speedOverride (h : draft.speedOverride = none)
    {order : List OverrideMember → List OverrideMember}
    (horder : ∀ members, (order members).Perm members) (speed : Option WrittenOverride) :
    (speed.map fun speed => ConfigMember.speedOverride (order speed.members)).toList.foldlM
        ConfigMember.add draft =
      (speed.mapM WrittenOverride.override?).map fun speed =>
        { draft with speedOverride := speed.map some } := by
  refine foldlM_toList (by rw [Option.map_none, ← h]) (fun speed => ?_) speed
  rw [ConfigMember.add, h, override?_of_perm (horder _), once?]
  cases speed.override? <;> rfl

/-- An update rate that is there is taken over, and nothing is changed without one. -/
theorem foldlM_updateRate (h : draft.updateRate = none) (rate : Option Nat) :
    (rate.map ConfigMember.updateRate).toList.foldlM ConfigMember.add draft =
      (rate.mapM Word.ofNat?).map fun rate => { draft with updateRate := rate.map some } := by
  refine foldlM_toList (by rw [Option.map_none, ← h]) (fun rate => ?_) rate
  rw [ConfigMember.add, h, once?]
  cases Word.ofNat? rate <;> rfl

end Members

/-- The members add up to the message. -/
theorem foldlM_members (config : WrittenConfig) {order : List OverrideMember → List OverrideMember}
    (horder : ∀ members, (order members).Perm members) :
    ((config.members order).foldlM ConfigMember.add {}).map ConfigMessage.Draft.finish =
      config.message? := by
  -- each of the members finds its own part of the draft empty, as they are of three kinds
  rw [members, List.foldlM_append, List.foldlM_append, foldlM_speedMap rfl, message?]
  cases config.speedMap.mapM pairs? with
  | none => rfl
  | some pairs =>
    simp only [Option.map_some, Option.bind_eq_bind, Option.bind_some]
    rw [foldlM_speedOverride rfl horder]
    cases config.speedOverride.mapM WrittenOverride.override? with
    | none => rfl
    | some speed =>
      simp only [Option.map_some, Option.bind_some]
      rw [foldlM_updateRate rfl]
      cases config.updateRate.mapM Word.ofNat? with
      | none => rfl
      | some rate => cases pairs <;> cases speed <;> cases rate <;> rfl

/-- A message is read from any of its texts for what was written. -/
theorem ofJson?_of_isText {config : WrittenConfig} {text : Bytes} (h : config.IsText text) :
    ConfigMessage.ofJson? text = config.message? := by
  obtain ⟨order, members, horder, hmembers, htext⟩ := h
  rw [ofJson?_of_spaced htext, foldlM_perm ConfigMember.add_comm hmembers,
    config.foldlM_members horder]

/-- The message is within the ranges of what can be read. -/
structure Fits (config : WrittenConfig) : Prop where
  length_le : ∀ pairs ∈ config.speedMap, pairs.length ≤ SpeedMap.entriesMax
  pair_lt : ∀ pairs ∈ config.speedMap, ∀ pair ∈ pairs,
    pair.1 < UInt32.size ∧ pair.2 < UInt32.size
  rpm_lt : ∀ speed ∈ config.speedOverride, speed.rpm < UInt16.size
  duration_lt : ∀ speed ∈ config.speedOverride, speed.duration < UInt32.size
  rate_lt : ∀ rate ∈ config.updateRate, rate < UInt32.size

/-- If a list is read, each of its items was. -/
theorem length_eq_of_mapM {α β : Type} {read : α → Option β} {items : List α} {values : List β}
    (h : items.mapM read = some values) :
    values.length = items.length ∧ ∀ item ∈ items, ∃ value, read item = some value := by
  induction items generalizing values with
  | nil =>
    cases h
    exact ⟨rfl, List.forall_mem_nil _⟩
  | cons item items ih =>
    rw [List.mapM_cons] at h
    simp only [Option.bind_eq_bind, Option.pure_def, Option.bind_eq_some_iff] at h
    obtain ⟨value, hvalue, values, hvalues, ⟨⟩⟩ := h
    obtain ⟨hlength, hitems⟩ := ih hvalues
    exact ⟨congrArg (· + 1) hlength, List.forall_mem_cons.2 ⟨⟨value, hvalue⟩, hitems⟩⟩

theorem exists_of_mapM {α β : Type} {read : α → Option β} {item : Option α} {value : Option β}
    (h : item.mapM read = some value) : ∀ x ∈ item, ∃ y, read x = some y := by
  rintro x rfl
  cases hread : read x with
  | some y => exact ⟨y, rfl⟩
  | none => simp [hread] at h

/-- A number that was read as a word fits into one. -/
theorem lt_of_ofNat?_eq_some {n : Nat} {word : UInt32} (h : Word.ofNat? n = some word) :
    n < UInt32.size := by
  rw [Word.ofNat?_eq_some_iff] at h
  exact h ▸ word.toNat_lt_size

/-- A number that was read as half a word fits into one. -/
theorem lt_of_half?_eq_some {n : Nat} {word : UInt16} (h : half? n = some word) :
    n < UInt16.size := by
  unfold half? at h
  split at h
  next hn => exact hn
  next => cases h

/-- Both numbers of a pair that was read fit into words. -/
theorem lt_of_pair?_eq_some {pair : Nat × Nat} {words : UInt32 × UInt32}
    (h : pair? pair = some words) : pair.1 < UInt32.size ∧ pair.2 < UInt32.size := by
  simp only [pair?, Option.bind_eq_bind, Option.bind_eq_some_iff] at h
  obtain ⟨_, hdegrees, _, hrpm, -⟩ := h
  exact ⟨lt_of_ofNat?_eq_some hdegrees, lt_of_ofNat?_eq_some hrpm⟩

/-- A speed map that was read is not too long, and all its numbers fit into words. -/
theorem bounds_of_pairs?_eq_some {pairs : List (Nat × Nat)} {words : List (UInt32 × UInt32)}
    (h : pairs? pairs = some words) :
    pairs.length ≤ SpeedMap.entriesMax ∧
      ∀ pair ∈ pairs, pair.1 < UInt32.size ∧ pair.2 < UInt32.size := by
  simp only [pairs?, Option.bind_eq_bind, Option.bind_eq_some_iff] at h
  obtain ⟨words, hwords, hlength⟩ := h
  obtain ⟨heq, hall⟩ := length_eq_of_mapM hwords
  split at hlength
  next hle =>
    refine ⟨heq ▸ hle, fun pair hpair => ?_⟩
    obtain ⟨_, hpair⟩ := hall pair hpair
    exact lt_of_pair?_eq_some hpair
  next => cases hlength

/-- Both numbers of an override that was read are within their bounds. -/
theorem lt_of_override?_eq_some {speed : WrittenOverride} {read : SpeedOverride}
    (h : speed.override? = some read) :
    speed.rpm < UInt16.size ∧ speed.duration < UInt32.size := by
  simp only [WrittenOverride.override?, Option.bind_eq_bind, Option.bind_eq_some_iff] at h
  obtain ⟨_, hrpm, _, hduration, -⟩ := h
  exact ⟨lt_of_half?_eq_some hrpm, lt_of_ofNat?_eq_some hduration⟩

/-- Only a message within the ranges is read. -/
theorem fits_of_message? {config : WrittenConfig} {message : ConfigMessage}
    (h : config.message? = some message) : config.Fits := by
  simp only [message?, Option.bind_eq_bind, Option.bind_eq_some_iff] at h
  obtain ⟨_, hspeedMap, _, hspeed, _, hrate, -⟩ := h
  -- each member that is present was read, so its numbers are within their ranges
  have hpairs : ∀ pairs ∈ config.speedMap, pairs.length ≤ SpeedMap.entriesMax ∧
      ∀ pair ∈ pairs, pair.1 < UInt32.size ∧ pair.2 < UInt32.size := by
    intro pairs hmem
    obtain ⟨_, hread⟩ := exists_of_mapM hspeedMap pairs hmem
    exact bounds_of_pairs?_eq_some hread
  have hoverride : ∀ speed ∈ config.speedOverride,
      speed.rpm < UInt16.size ∧ speed.duration < UInt32.size := by
    intro speed hmem
    obtain ⟨_, hread⟩ := exists_of_mapM hspeed speed hmem
    exact lt_of_override?_eq_some hread
  refine ⟨fun pairs hmem => (hpairs pairs hmem).1, fun pairs hmem => (hpairs pairs hmem).2,
    fun speed hmem => (hoverride speed hmem).1, fun speed hmem => (hoverride speed hmem).2,
    fun rate hmem => ?_⟩
  obtain ⟨_, hread⟩ := exists_of_mapM hrate rate hmem
  exact lt_of_ofNat?_eq_some hread

end WrittenConfig

namespace ConfigMessage

/-- The message with its numbers as they are written. -/
def written (message : ConfigMessage) : WrittenConfig where
  speedMap := message.speedMap.map fun pairs => pairs.map fun pair => (pair.1.toNat, pair.2.toNat)
  speedOverride := message.speedOverride.map fun speed => ⟨speed.rpm.toNat, speed.duration.toNat⟩
  updateRate := message.updateRate.map UInt32.toNat

/-- Every word is the reading of its number. -/
theorem ofNat?_toNat (word : UInt32) : Word.ofNat? word.toNat = some word :=
  Word.ofNat?_eq_some_iff.2 rfl

theorem half?_toNat (word : UInt16) : half? word.toNat = some word := by
  rw [half?, if_pos word.toNat_lt_size, UInt16.ofNat_toNat]

/-- Every speed map that is not too long is the reading of its numbers. -/
theorem pairs?_toNat {pairs : List (UInt32 × UInt32)} (h : pairs.length ≤ SpeedMap.entriesMax) :
    pairs? (pairs.map fun pair => (pair.1.toNat, pair.2.toNat)) = some pairs := by
  have hread : (pairs.map fun pair => (pair.1.toNat, pair.2.toNat)).mapM pair? = some pairs := by
    clear h
    induction pairs with
    | nil => rfl
    | cons pair pairs ih =>
      rw [List.map_cons, List.mapM_cons, ih, pair?, ofNat?_toNat, ofNat?_toNat]
      rfl
  rw [pairs?, hread]
  exact if_pos h

/-- A message whose map is short enough is read for itself. -/
theorem message?_written {message : ConfigMessage}
    (h : ∀ pairs ∈ message.speedMap, pairs.length ≤ SpeedMap.entriesMax) :
    message.written.message? = some message := by
  obtain ⟨speedMap, speedOverride, updateRate⟩ := message
  -- each member on its own: what was written from a word is within its bounds
  have hspeedMap : (speedMap.map fun pairs =>
      pairs.map fun pair => (pair.1.toNat, pair.2.toNat)).mapM pairs? = some speedMap := by
    cases speedMap with
    | none => rfl
    | some pairs =>
      rw [Option.map_some, Option.mapM_some, pairs?_toNat (h pairs rfl)]
      rfl
  have hspeed : (speedOverride.map fun speed => WrittenOverride.mk speed.rpm.toNat
      speed.duration.toNat).mapM WrittenOverride.override? = some speedOverride := by
    cases speedOverride with
    | none => rfl
    | some speed =>
      rw [Option.map_some, Option.mapM_some, WrittenOverride.override?, half?_toNat, ofNat?_toNat]
      rfl
  have hrate : (updateRate.map UInt32.toNat).mapM Word.ofNat? = some updateRate := by
    cases updateRate with
    | none => rfl
    | some rate =>
      rw [Option.map_some, Option.mapM_some, ofNat?_toNat]
      rfl
  rw [WrittenConfig.message?, written, hspeedMap, hspeed, hrate]
  rfl

theorem flatten_pairTokens (pair : Nat × Nat) : (ConfigMember.pairTokens pair).flatten =
    Json.array [Decimal.digits pair.1, Decimal.digits pair.2] := by
  simp [ConfigMember.pairTokens, flatten_arrayTokens]

/-- A speed map is written as its member of the configuration. -/
theorem flatten_speedMap (pairs : List (UInt32 × UInt32)) :
    (ConfigMember.speedMap (pairs.map fun pair => (pair.1.toNat, pair.2.toNat))).tokens.flatten =
      Json.member "fan-speed-map" (speedMapJson pairs) := by
  have hvalue : (arrayTokens ((pairs.map fun pair => (pair.1.toNat, pair.2.toNat)).map
      ConfigMember.pairTokens)).flatten = speedMapJson pairs := by
    rw [flatten_arrayTokens, speedMapJson, List.map_map, List.map_map]
    exact congrArg Json.array (List.map_congr_left fun pair _ => flatten_pairTokens _)
  exact congrArg (Json.member "fan-speed-map") hvalue

theorem flatten_speedOverride (speed : SpeedOverride) :
    (ConfigMember.speedOverride (WrittenOverride.mk speed.rpm.toNat
      speed.duration.toNat).members).tokens.flatten = Json.member "override" speed.json := by
  have hvalue : (objectTokens ((WrittenOverride.mk speed.rpm.toNat
      speed.duration.toNat).members.map OverrideMember.tokens)).flatten = speed.json := by
    rw [flatten_objectTokens, SpeedOverride.json]
    simp [WrittenOverride.members, OverrideMember.tokens, OverrideMember.name, OverrideMember.value,
      memberTokens, Json.member]
  exact congrArg (Json.member "override") hvalue

theorem flatten_updateRate (n : Nat) : (ConfigMember.updateRate n).tokens.flatten =
    Json.member "update-rate" (Decimal.digits n) := by
  simp [ConfigMember.tokens, ConfigMember.name, ConfigMember.value, memberTokens, Json.member]

/-- The message without blanks is one of its texts. -/
theorem isText_json (message : ConfigMessage) : message.written.IsText message.json := by
  have hmembers : message.members =
      ((message.written.members id).map ConfigMember.tokens).map List.flatten := by
    simp only [members, WrittenConfig.members, written, List.map_append, Option.map_map,
      ← Option.toList_map, Function.comp_def, id, flatten_speedMap, flatten_speedOverride,
      flatten_updateRate]
  refine ⟨id, message.written.members id, fun _ => .rfl, .rfl, ?_⟩
  rw [json, hmembers, ← flatten_objectTokens]
  exact spaced_flatten _

end ConfigMessage

end SecureKit
