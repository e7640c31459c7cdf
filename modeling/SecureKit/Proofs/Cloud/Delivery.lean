import SecureKit.Proofs.Cloud.Pacing
import SecureKit.Proofs.Json.Prefix
import SecureKit.Proofs.Timing.Clock

/-!
# Messages That Are Cut Off

A configuration message that is longer than its buffer is cut off by the cloud. What is left of it
is no message, not even one with a smaller number at its end, so nothing of it is applied.

* `closes_message` — a message ends with its closing brace.
* `ofJson?_eq_none_of_isPrefix` — no part of a message is one.
* `configure_never_cut_off` — a message that is cut off changes nothing.
-/

namespace SecureKit

open Json Json.Reader Program

namespace ConfigMessage

section Readers

variable {fuel fuel' : Nat}

theorem extends_word : Extends word word := (extends_natural _).map _

theorem extends_readPair (h : fuel ≤ fuel') : Extends (readPair fuel) (readPair fuel') := by
  refine (closes_array extends_word h).extends.bind fun numbers => ?_
  split
  · exact extends_pure _
  · exact extends_fail _

theorem extends_readSpeedMap (h : fuel ≤ fuel') :
    Extends (readSpeedMap fuel) (readSpeedMap fuel') :=
  (closes_array (extends_readPair h) h).extends.bind fun pairs =>
    .ite (extends_pure pairs) (extends_fail fail)

theorem extends_readOverrideMember (h : fuel ≤ fuel') (name : String)
    (seen : Option UInt16 × Option UInt32) :
    Extends (readOverrideMember fuel name seen) (readOverrideMember fuel' name seen) := by
  obtain ⟨rpm, duration⟩ := seen
  unfold readOverrideMember
  dsimp only
  split
  · have hrpm := ((extends_natural UInt16.size).map UInt16.ofNat).once rpm
    exact hrpm.bind fun rpm => extends_pure (rpm, duration)
  · exact (extends_word.once duration).bind fun duration => extends_pure (rpm, duration)
  · exact (extends_skip h).bind fun _ => extends_pure (rpm, duration)

theorem extends_readOverride (h : fuel ≤ fuel') :
    Extends (readOverride fuel) (readOverride fuel') := by
  refine (closes_object (extends_readOverrideMember h) h _).extends.bind fun seen => ?_
  split
  · exact extends_pure _
  · exact extends_fail _

/-- A member of a configuration is read alike from a longer text. -/
theorem extends_readMember (h : fuel ≤ fuel') (name : String) (draft : Draft) :
    Extends (draft.readMember fuel name) (draft.readMember fuel' name) := by
  unfold Draft.readMember
  split
  · exact ((extends_readSpeedMap h).nullable.once _).bind fun _ => extends_pure _
  · exact ((extends_readOverride h).nullable.once _).bind fun _ => extends_pure _
  · exact (extends_word.nullable.once _).bind fun _ => extends_pure _
  · exact (extends_skip h).bind fun _ => extends_pure _

/-- A message ends with its closing brace. -/
theorem closes_message (fuel fuel' : Nat) (h : fuel ≤ fuel') :
    Closes (object (Draft.readMember fuel) fuel {}) (object (Draft.readMember fuel') fuel' {}) :=
  closes_object (extends_readMember h) h {}

end Readers

/-- No part of a message that ends with its closing brace is a message. -/
theorem ofJson?_eq_none_of_isPrefix {text front : Bytes} {message : ConfigMessage}
    (hread : ofJson? text = some message) (hclosed : text.getLast? = some (Bytes.ascii '\x7d'))
    (hfront : front <+: text) (hne : front ≠ text) : ofJson? front = none := by
  obtain ⟨more, rfl⟩ := hfront
  have hmore : more ≠ [] := by
    rintro rfl
    exact hne (List.append_nil front).symm
  refine Option.eq_none_iff_forall_ne_some.2 fun message' hread' => ?_
  obtain ⟨draft, hdraft, -⟩ := Option.map_eq_some_iff.1 hread
  obtain ⟨draft', hdraft', -⟩ := Option.map_eq_some_iff.1 hread'
  obtain ⟨-, hblanks⟩ := document_append closes_message hdraft' hdraft
  -- the brace would be one of the blanks between the ends of the two texts
  rw [List.getLast?_append, List.getLast?_eq_some_getLast hmore, Option.some_or] at hclosed
  have hbrace := hblanks _ (List.getLast_mem hmore)
  rw [Option.some.inj hclosed] at hbrace
  exact absurd hbrace (by decide)

end ConfigMessage

/-- A message that arrives is the text, as far as there is room for it. The reported length may be
any. -/
def Event.Delivers (text : Bytes) : Event → Prop
  | ⟨.pollMessage room, reply⟩ =>
    ∀ delivery, reply = .ok (some delivery) → delivery.stored = text.take room
  | _ => True

/-- What fills a buffer replaces all that it has held. -/
theorem Bytes.overlay_of_length_eq {buffer stored : Bytes} (h : stored.length = buffer.length) :
    buffer.overlay 0 stored = stored := by
  rw [overlay, List.take_zero, List.nil_append, Nat.zero_add, h, List.drop_length, List.append_nil,
    ← h, List.take_length]

namespace Client

/-- Of a text that does not fit into the buffer a client has only a part. -/
theorem exists_take_of_delivers {text : Bytes} {delivery : Delivery}
    (hroom : messageRoom < text.length) (h : delivery.stored = text.take messageRoom) :
    ∃ size < text.length,
      ((Bytes.zeros messageRoom).overlay 0 delivery.stored).take delivery.length =
        text.take size := by
  have hfull : delivery.stored.length = (Bytes.zeros messageRoom).length := by
    rw [h, List.length_take, Bytes.length_zeros, Nat.min_eq_left (Nat.le_of_lt hroom)]
  refine ⟨min delivery.length messageRoom, by omega, ?_⟩
  rw [Bytes.overlay_of_length_eq hfull, h, List.take_take]

section CutOff

variable {text : Bytes} {message : ConfigMessage}

/-- A client refuses every part of a message. -/
theorem configure_of_isPrefix (client : Client) (hread : ConfigMessage.ofJson? text = some message)
    (hclosed : text.getLast? = some (Bytes.ascii '\x7d')) {front : Bytes} (hfront : front <+: text)
    (hne : front ≠ text) : client.configure front = return (.error .parse, client) := by
  rw [configure, ConfigMessage.ofJson?_eq_none_of_isPrefix hread hclosed hfront hne]

/-- A client that fetches a message which does not fit stays as it is. -/
theorem receive_of_delivers (client : Client) (hread : ConfigMessage.ofJson? text = some message)
    (hclosed : text.getLast? = some (Bytes.ascii '\x7d')) (hroom : messageRoom < text.length) :
    client.receive.EnsuresUnder (Event.Delivers text) fun _ client' => client' = client := by
  rw [receive, perform_eq, call_bind, ensuresUnder_call]
  intro reply hdelivers
  rw [done_bind]
  rcases reply with error | _ | delivery
  · exact rfl
  · exact rfl
  · obtain ⟨size, hsize, hcontent⟩ := exists_take_of_delivers hroom (hdelivers delivery rfl)
    have hne : text.take size ≠ text := by
      intro hall
      have hlength := congrArg List.length hall
      rw [List.length_take] at hlength
      omega
    dsimp only
    rw [hcontent, client.configure_of_isPrefix hread hclosed (List.take_prefix size text) hne]
    exact rfl

/-- In a session no message that does not fit changes the fan control or the telemetry period. -/
theorem step_of_delivers (client : Client) (hphase : client.phase = .run)
    (hread : ConfigMessage.ofJson? text = some message)
    (hclosed : text.getLast? = some (Bytes.ascii '\x7d')) (hroom : messageRoom < text.length) :
    client.step.EnsuresUnder (Event.Delivers text) fun _ client' =>
      client'.fan = client.fan ∧ client'.updatePeriod = client.updatePeriod := by
  rw [step, hphase]
  rintro (_ | _) -
  · show EnsuresUnder _ (if client.wait.held = true then _ else _) _
    -- while it waits a connected client receives, and otherwise it publishes
    split
    next =>
      refine (client.receive_of_delivers hread hclosed hroom).mono fun _ client' hsame => ?_
      rw [hsame]
      exact ⟨rfl, rfl⟩
    next =>
      rw [ensuresUnder_bind]
      refine (ensures_publishTelemetry _).under.mono fun _ result hpublication => ?_
      show result.2.fan = _ ∧ result.2.updatePeriod = _
      rw [hpublication.client_eq]
      exact ⟨rfl, rfl⟩
  · exact ⟨rfl, rfl⟩

/-- A message is not applied in part. If a text that ends with the closing brace of its object is
accepted, then no other part in front of it is, by any client, and such a part changes nothing. So
when the text is longer than the buffer for messages, and only as much of it is delivered as fits, a
client that receives it stays as it is, and no step of a session changes the speed map, the ordered
speed or the telemetry period. -/
theorem configure_never_cut_off {σ : Type} (environment : Environment σ) (state : σ)
    (client : Client) {text : Bytes}
    (hclosed : text.getLast? = some (Bytes.ascii '\x7d'))
    (haccepted : ((client.configure text).run environment state).1.1 = .ok ()) (other : Client) :
    (∀ front : Bytes, front <+: text → front ≠ text →
      other.configure front = return (.error .parse, other)) ∧
    (messageRoom < text.length → ∀ {τ : Type} (cloud : Environment τ) (start : τ),
      ((∀ event ∈ other.receive.trace cloud start, event.Delivers text) →
        (other.receive.run cloud start).1 = other) ∧
      (other.phase = .run → (∀ event ∈ other.step.trace cloud start, event.Delivers text) →
        (other.step.run cloud start).1.fan = other.fan ∧
          (other.step.run cloud start).1.updatePeriod = other.updatePeriod)) := by
  cases hread : ConfigMessage.ofJson? text with
  | none =>
    rw [configure, hread] at haccepted
    cases haccepted
  | some message =>
    refine ⟨fun front => other.configure_of_isPrefix hread hclosed, fun hroom τ cloud start => ?_⟩
    refine ⟨(other.receive_of_delivers hread hclosed hroom).run, fun hphase => ?_⟩
    exact (other.step_of_delivers hphase hread hclosed hroom).run

/-- A message whose number 50000 is cut off behind the digits of 5000. -/
theorem configure_never_cut_off_number :
    let text := Bytes.ofText "\x7b\"note\":\"" ++ List.replicate 227 (Bytes.ascii 'a') ++
      Bytes.ofText "\",\"update-rate\":50000\x7d"
    let bench := Bench.unscripted (StillClock.mk 1000)
    let delivering := { bench with cloud := { bench.cloud with inbox := [text] } }
    let client := Client.new ⟨"bridge", 443, "project", "region", "kits", "kit"⟩ 10
    ((client.configure text).run Bench.environment bench).1.1 = .ok () ∧
      client.configure (text.take messageRoom) = (return (.error .parse, client)) ∧
      client.receive.trace Bench.environment delivering =
        [⟨.pollMessage messageRoom, .ok (some ⟨text.take messageRoom, text.length⟩)⟩] ∧
      (client.receive.run Bench.environment delivering).1 = client := by
  intro text bench delivering client
  have hread : ConfigMessage.ofJson? text = some ⟨none, none, some 50000⟩ := by decide +kernel
  have hclosed : text.getLast? = some (Bytes.ascii '\x7d') := by decide +kernel
  have hlength : text.length = 258 := by decide +kernel
  -- the text is long: no later step may evaluate it, and these three facts are enough
  clear_value text
  have hfull : (text.take messageRoom).length = (Bytes.zeros messageRoom).length := by
    rw [List.length_take, hlength, Bytes.length_zeros]
    rfl
  have hcontent : ((Bytes.zeros messageRoom).overlay 0 (text.take messageRoom)).take text.length =
      text.take messageRoom := by
    rw [Bytes.overlay_of_length_eq hfull]
    exact List.take_of_length_le (List.length_take_le' messageRoom text)
  have haccepted : ((client.configure text).run Bench.environment bench).1.1 = .ok () := by
    rw [configure, hread]
    rfl
  obtain ⟨hpart, hreceive⟩ :=
    configure_never_cut_off Bench.environment bench client hclosed haccepted client
  have hcut := hpart (text.take messageRoom) (List.take_prefix _ _) fun hall => by
    have hshort := congrArg List.length hall
    rw [List.length_take, hlength] at hshort
    exact absurd hshort (by decide)
  have htrace : client.receive.trace Bench.environment delivering =
      [⟨.pollMessage messageRoom, .ok (some ⟨text.take messageRoom, text.length⟩)⟩] := by
    have hpolled : (Bench.environment.answer (.pollMessage messageRoom) delivering).1 =
        .ok (some ⟨text.take messageRoom, text.length⟩) := rfl
    rw [receive, perform_eq, call_bind, trace_call, hpolled, done_bind]
    dsimp only
    rw [hcontent, hcut]
    rfl
  have hroom : messageRoom < text.length := by
    rw [hlength]
    decide
  refine ⟨haccepted, hcut, htrace, (hreceive hroom Bench.environment delivering).1 ?_⟩
  rw [htrace]
  rintro _ (_ | ⟨_, ⟨⟩⟩) _ ⟨⟩
  rfl

end CutOff

end Client

end SecureKit
