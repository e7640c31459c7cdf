import Mathlib.Tactic.ByContra
import SecureKit.Element.PublicKey
import SecureKit.Proofs.Element.Checksum
import SecureKit.Proofs.Element.Packet

/-!
# The Export of Public Keys

A key is taken from nothing but a whole response, rightly counted and undamaged, to a packet that
asks for it, and it can be read back from the text that it is exported as.

* `Asks` — the packets that ask for the key of a slot.
* `Reading`, `reading_read` — what is sent to read a key, and when there is one.
* `writePem_of_le` — the parts of the text meet, and nothing behind them is changed.
* `pem_injective` — the text of a key shows which key it is.
* `export_faithful` — reading and writing together.
-/

namespace SecureKit

open Program

namespace PublicKey

/-- A packet that asks for the public key of a slot. -/
structure Asks (slot : UInt16) (packet : Bytes) : Prop where
  /-- All bytes are counted. -/
  counted : (packet.headD 0).toNat = packet.length
  command : Command.ofPacket? packet = some (.genKey, Command.genKeyPublic)
  slot_eq : Bytes.littleEndian ((packet.drop 3).take 2) = slot.toNat
  checked : Checksum.holds packet = true

/-- The packet for a slot asks for the key of the slot. -/
theorem asks_packet (slot : UInt16) : Asks slot (packet slot) where
  counted := rfl
  command := rfl
  slot_eq := Bytes.littleEndian_halves slot
  checked := by
    refine (Checksum.holds_iff _).2 ⟨0x07, (packet slot).tail.take 4, [], ?_, rfl⟩
    rw [List.append_nil]
    rfl

/-- The response to the packet fits into the buffer. -/
theorem responseLength_le (slot : UInt16) {order : Element.Order}
    (h : Element.Order.ofPacket (packet slot) = .ok order) :
    order.responseLength ≤ Element.pairResponse := by
  rw [Element.Order.responseLength_eq h]
  exact Nat.le_refl Element.pairResponse

/-- The buffer for a response, which was cleared before the exchange. -/
def response (exchange : Exchange Nat) : Bytes :=
  (Bytes.zeros Element.pairResponse).overlay 0 exchange.stored

/-- An exchange has succeeded with a whole response, rightly counted and undamaged, that holds a
key. -/
structure Attests (exchange : Exchange Nat) (key : PublicKey) : Prop where
  received : exchange.outcome = .ok Element.pairResponse
  counted : ((response exchange).headD 0).toNat = Element.pairResponse
  checked : Checksum.holds (response exchange) = true
  key_eq : key.toList = ((response exchange).drop 1).take size

/-- What is made of an exchange. -/
def ofExchange (exchange : Exchange Nat) : Except Error PublicKey :=
  match exchange.outcome with
  | .error error => .error (.device error)
  | .ok length => ofResponse length (response exchange)

theorem read_eq (slot : UInt16) :
    read slot = Element.talk (packet slot) Element.pairResponse >>= fun exchange =>
      return ofExchange exchange := by
  rw [read]
  congr 1
  funext exchange
  rw [ofExchange]
  cases exchange.outcome <;> rfl

/-- A response that holds a key has a window for it. -/
theorem ofResponse_eq_ok_iff {length : Nat} {response : Bytes} {key : PublicKey}
    (hlength : response.length = Element.pairResponse) :
    ofResponse length response = .ok key ↔
      length = Element.pairResponse ∧ (response.headD 0).toNat = Element.pairResponse ∧
        Checksum.holds response = true ∧ key.toList = (response.drop 1).take size := by
  have hkey : response.window 1 64 = key ↔ key.toList = (response.drop 1).take size := by
    rw [← Vector.toList_inj, Bytes.toList_window (by rw [hlength]; decide)]
    exact eq_comm
  show (if _ then Except.ok (response.window 1 64) else _) = _ ↔ _
  rw [hlength, ← hkey]
  split
  · next hwhole =>
    obtain ⟨hreceived, hcounted, hchecked⟩ := hwhole
    exact ⟨fun h => ⟨hreceived, hcounted, hchecked, Except.ok.inj h⟩,
      fun h => congrArg Except.ok h.2.2.2⟩
  · next hwhole =>
    refine iff_of_false nofun ?_
    rintro ⟨hreceived, hcounted, hchecked, -⟩
    exact hwhole ⟨hreceived, hcounted, hchecked⟩

/-- A response holds a key or is invalid. -/
theorem ofResponse_cases (length : Nat) (response : Bytes) :
    (∃ key, ofResponse length response = .ok key) ∨
      ofResponse length response = .error .invalidResponse := by
  rw [ofResponse]
  split
  · exact .inl ⟨_, rfl⟩
  · exact .inr rfl

/-- The calls of reading a key, the exchange that they come to, and what is made of it. -/
structure Reading (slot : UInt16) (events : List Event) (exchange : Exchange Nat)
    (result : Except Error PublicKey) : Prop where
  /-- A frame is a packet behind a place for the interface, which holds the count. -/
  sent : ∀ event ∈ events, ∀ frame, event.call = .send frame →
    ∃ packet, frame = packet.headD 0 :: packet ∧ Asks slot packet
  /-- The exchange fails with the earliest failure of the calls. -/
  fault_eq : DeviceError.ofResult? exchange.outcome = Element.firstFault? events
  /-- An exchange that succeeds is what the bus has answered in the one call that asks for the
  response. -/
  answered : DeviceError.ofResult? exchange.outcome = none →
    events.filterMap Event.answered? = [exchange] ∧
      exchange.stored.length ≤ Element.pairResponse
  eq_ok_iff : ∀ key, result = .ok key ↔ Attests exchange key
  eq_device_iff : ∀ error, result = .error (.device error) ↔ exchange.outcome = .error error
  eq_invalidResponse_iff : result = .error .invalidResponse ↔
    DeviceError.ofResult? exchange.outcome = none ∧ ∀ key, ¬Attests exchange key

/-- A key comes from an exchange that attests it, and from no other. -/
theorem ofExchange_eq_ok_iff (exchange : Exchange Nat) (key : PublicKey) :
    ofExchange exchange = .ok key ↔ Attests exchange key := by
  have hlength : (response exchange).length = Element.pairResponse := by simp [response]
  rw [ofExchange]
  cases houtcome : exchange.outcome with
  | error error =>
    exact iff_of_false nofun fun h => absurd (houtcome.symm.trans h.received) nofun
  | ok length =>
    dsimp only
    rw [ofResponse_eq_ok_iff hlength]
    constructor
    · rintro ⟨rfl, hcounted, hchecked, hkey⟩
      exact ⟨houtcome, hcounted, hchecked, hkey⟩
    · rintro ⟨hreceived, hcounted, hchecked, hkey⟩
      exact ⟨Except.ok.inj (houtcome.symm.trans hreceived), hcounted, hchecked, hkey⟩

/-- A failure of the device is one of the exchange. -/
theorem ofExchange_eq_device_iff (exchange : Exchange Nat) (error : DeviceError) :
    ofExchange exchange = .error (.device error) ↔ exchange.outcome = .error error := by
  rw [ofExchange]
  cases exchange.outcome with
  | error error' => simp
  | ok length =>
    refine iff_of_false (fun h => ?_) nofun
    rcases ofResponse_cases length (response exchange) with ⟨key, hkey⟩ | hinvalid
    · exact absurd (h.symm.trans hkey) nofun
    · exact absurd (h.symm.trans hinvalid) nofun

/-- An exchange that has succeeded without attesting a key is an invalid response. -/
theorem ofExchange_eq_invalidResponse_iff (exchange : Exchange Nat) :
    ofExchange exchange = .error .invalidResponse ↔
      DeviceError.ofResult? exchange.outcome = none ∧ ∀ key, ¬Attests exchange key := by
  simp only [← ofExchange_eq_ok_iff]
  rw [ofExchange]
  cases exchange.outcome with
  | error error => exact iff_of_false nofun fun h => absurd h.1 nofun
  | ok length =>
    dsimp only
    rcases ofResponse_cases length (response exchange) with ⟨key, hkey⟩ | hinvalid
    · rw [hkey]
      exact iff_of_false nofun fun h => h.2 key rfl
    · rw [hinvalid]
      exact iff_of_true rfl ⟨rfl, nofun⟩

/-- The transaction that asks for a key is a reading, whatever the bus answers. -/
theorem reading_talk (slot : UInt16) :
    (Element.talk (packet slot) Element.pairResponse).Ensures fun events exchange =>
      Reading slot events exchange (ofExchange exchange) := by
  have hcalls := (Element.handled_talk (packet slot) Element.pairResponse).and
    (Element.reports_talk_of_fits fun _ => responseLength_le slot)
  refine (hcalls.and (Element.returns_talk (packet slot) Element.pairResponse)).mono ?_
  rintro events exchange ⟨⟨hhandled, hfault, -⟩, hreturned⟩
  constructor
  case sent =>
    intro event hevent frame hcall
    obtain ⟨millis, hmem⟩ := hhandled.call_mem hevent
    have hframe : frame = Element.frameOf (packet slot) := by
      simpa [hcall, Element.transaction] using hmem
    exact ⟨packet slot, hframe, asks_packet slot⟩
  -- the packet is not refused, so no failure comes before those of the calls
  case fault_eq => exact hfault
  case answered => exact hreturned
  case eq_ok_iff => exact ofExchange_eq_ok_iff exchange
  case eq_device_iff => exact ofExchange_eq_device_iff exchange
  case eq_invalidResponse_iff => exact ofExchange_eq_invalidResponse_iff exchange

/-- The calls and the result of reading a key are those of a reading. -/
theorem reading_read {σ : Type} (environment : Environment σ) (state : σ) (slot : UInt16) :
    Reading slot ((read slot).trace environment state)
      ((Element.talk (packet slot) Element.pairResponse).run environment state).1
      ((read slot).run environment state).1 := by
  have htalk := (reading_talk slot).run environment state
  rw [read_eq, run_bind, trace_bind]
  rwa [← List.append_nil (Program.trace _ _ _)] at htalk

/-- The text that a key is exported as. -/
def pem (key : PublicKey) : Bytes := opening ++ Base64.encode key.container ++ closing

section Pem

variable (key : PublicKey)

theorem length_body :
    (Base64.encode key.container).length = Base64.encodedLength (header.length + size) := by
  simp [container, size]

/-- All texts have the same size. -/
theorem length_pem : key.pem.length = pemSize := by
  rw [pem, List.length_append, List.length_append, length_body, pemSize]

example : pemSize = 180 := by decide

/-- All characters of the text are ASCII. -/
theorem lt_of_mem_pem : ∀ c ∈ key.pem, c < 0x80 := by
  have hopening : ∀ c ∈ opening, c < 0x80 := by decide +kernel
  have hclosing : ∀ c ∈ closing, c < 0x80 := by decide +kernel
  simp only [pem, List.forall_mem_append]
  exact ⟨⟨hopening, Base64.lt_of_mem_encode _⟩, hclosing⟩

theorem writePem_of_lt {buffer : Bytes} (h : buffer.length < pemSize) :
    key.writePem buffer = (.error .bufferTooSmall, buffer) := if_pos h

/-- Each part of the text is written where the one before ends, and the last one ends with the
text. -/
theorem writePem_of_le {buffer : Bytes} (h : pemSize ≤ buffer.length) :
    key.writePem buffer = (.ok key.pem, key.pem ++ buffer.drop pemSize) := by
  have hsize := key.length_pem
  have hpem : opening ++ Base64.encode key.container ++ closing = key.pem := rfl
  obtain ⟨text, htext⟩ := Bytes.exists_ofText_eq key.lt_of_mem_pem
  rw [pem, List.length_append, List.length_append] at hsize
  have hopened : buffer.overlay 0 opening = opening ++ buffer.drop opening.length :=
    Bytes.overlay_append [] (by omega)
  have hrest : ((buffer.drop opening.length).drop (Base64.encode key.container).length).drop
      closing.length = buffer.drop pemSize := by
    rw [List.drop_drop, List.drop_drop, ← Nat.add_assoc, hsize]
  rw [writePem, if_neg (Nat.not_lt.2 h)]
  dsimp only
  rw [if_neg (by omega), hopened, Bytes.overlay_append _ (by rw [List.length_drop]; omega),
    ← List.length_append, Bytes.overlay_append _ (by simp only [List.length_drop]; omega), hrest,
    hpem, ← List.length_append, hpem, List.take_left]
  -- the text is ASCII, so the check at the end succeeds
  exact if_pos (by rw [← htext, Bytes.text?_ofText]; rfl)

/-- A key is read back from its text. -/
theorem pem_injective : Function.Injective pem := by
  intro key key' h
  have hbody : Base64.encode key.container = Base64.encode key'.container :=
    List.append_cancel_left (List.append_cancel_right h)
  have hcontainer : some key.container = some key'.container := by
    rw [← Base64.decode_encode, hbody, Base64.decode_encode]
  exact Vector.toList_inj.1 (List.append_cancel_left (Option.some.inj hcontainer))

end Pem

/-- A key is read with a checked packet that asks for it, from a response that is whole, rightly
counted and undamaged; a transaction that fails is reported as such, and any other response is
invalid. It is written as a text of `pemSize` characters that depends on nothing else, and holds the
key in its container as base64; what is behind the text is kept, and so is all of a buffer that is
too small. -/
theorem export_faithful :
    (∀ {σ : Type} (environment : Environment σ) (state : σ) (slot : UInt16),
      Reading slot ((read slot).trace environment state)
        ((Element.talk (packet slot) Element.pairResponse).run environment state).1
        ((read slot).run environment state).1) ∧
    (∀ key : PublicKey, ∃ body : Bytes,
      let text := opening ++ body ++ closing
      Base64.decode body = some (header ++ key.toList) ∧ text.length = pemSize ∧
        (∀ c ∈ text, c < 0x80) ∧
        ∀ buffer : Bytes,
          (key.writePem buffer = (.error .bufferTooSmall, buffer) ↔ buffer.length < pemSize) ∧
          (pemSize ≤ buffer.length →
            key.writePem buffer = (.ok text, text ++ buffer.drop pemSize))) ∧
    (∀ (key key' : PublicKey) (buffer buffer' text : Bytes),
      (key.writePem buffer).1 = .ok text → (key'.writePem buffer').1 = .ok text → key = key') ∧
    ∀ (c : UInt8) (i : Nat), Base64.value? c = some i ↔ Base64.alphabet[i]? = some c := by
  -- a text is only given for a buffer that has the room, and does not depend on it
  have hwritten {key : PublicKey} {buffer text : Bytes} (h : (key.writePem buffer).1 = .ok text) :
      key.pem = text := by
    rcases Nat.lt_or_ge buffer.length pemSize with hshort | hroom
    · rw [key.writePem_of_lt hshort] at h
      cases h
    · rw [key.writePem_of_le hroom] at h
      exact Except.ok.inj h
  refine ⟨reading_read, fun key => ?_, fun key key' buffer buffer' text h h' => ?_,
    fun _ _ => Base64.value?_eq_some_iff⟩
  · refine ⟨Base64.encode key.container, Base64.decode_encode _, key.length_pem,
      key.lt_of_mem_pem, fun buffer => ⟨⟨fun h => ?_, key.writePem_of_lt⟩, key.writePem_of_le⟩⟩
    by_contra hroom
    rw [key.writePem_of_le (Nat.not_lt.1 hroom)] at h
    cases h
  · exact pem_injective ((hwritten h).trans (hwritten h').symm)

end PublicKey

end SecureKit
