import Mathlib.Tactic.SplitIfs
import SecureKit.Cloud.Client
import SecureKit.Proofs.Fan.Window
import SecureKit.Proofs.Peripheral.Program

/-!
# The Control Law of the Fan

The fan control makes its steps among orders of speeds, changes of the map and calls of others, in
any order, while the peripherals may fail and the clock may be set at any time. What a step does is
a function of the clock, of the sensor and of this history.

* `FanControl.Lawful` — what a step does after a history.
* `FanControl.Tracks.update` — a step follows the law, and the control keeps track of the history.
* `FanControl.session_governed` — the law holds in every run.
-/

namespace SecureKit

open Program Samples

/-- The temperature that was read in an event, if one was. -/
def Event.reading? : Event → Option Int32
  | ⟨.temperature, .ok reading⟩ => some reading
  | _ => none

namespace FanControl

/-- What may happen to a fan control with peripherals of state `σ`. -/
inductive Action (σ : Type) where
  | update
  | poll
  /-- A call is made by someone else, as by the client that reads the temperature or the speed. -/
  | call (request : Call)
  | setMap (map : SpeedMap)
  | setOverride (rpm : UInt16) (limit : UInt32)
  /-- The clock goes on, or the peripherals change in another way. -/
  | change (change : σ → σ)

/-- What has happened to a fan control, with the calls that were made. -/
inductive Occurrence where
  | update (events : List Event)
  /-- A call of someone else. -/
  | call (event : Event)
  | setMap (map : SpeedMap)
  | setOverride (rpm : UInt16) (limit : UInt32)
  | other

namespace Occurrence

/-- The readings taken by the control. -/
def readings : Occurrence → List Int32
  | update events => events.filterMap Event.reading?
  | call _ | setMap _ | setOverride _ _ | other => []

/-- The map that was set, if one was. -/
def map? : Occurrence → Option SpeedMap
  | setMap map => some map
  | update _ | call _ | setOverride _ _ | other => none

/-- The speed that was ordered with the time until which it is kept, if one was. -/
def order? : Occurrence → Option (UInt16 × UInt32)
  | setOverride rpm limit => some (rpm, limit)
  | update _ | call _ | setMap _ | other => none

end Occurrence

/-- The readings taken by the control in a history, in order. -/
def readings (history : List Occurrence) : List Int32 := history.flatMap Occurrence.readings

/-- The map that was set last. -/
def latestMap (history : List Occurrence) : SpeedMap :=
  (history.filterMap Occurrence.map?).getLast?.getD .standard

/-- The speed that was ordered last, with the time until which it is kept. -/
def latestOrder (history : List Occurrence) : UInt16 × UInt32 :=
  (history.filterMap Occurrence.order?).getLast?.getD (0, 0)

/-- The speed for a reading after a history, by the mean of the last readings. -/
def ruledSpeed (history : List Occurrence) (reading : Int32) : UInt16 :=
  (latestMap history).speedFor (mean (lastReadings (readings history ++ [reading])))

/-- The calls and the result of a step after a history, in which what came last stands last. -/
inductive Lawful (history : List Occurrence) : List Event → Except FanError UInt16 → Prop
  /-- The speed that was ordered last is still to be kept, and no reading is taken. -/
  | ordered (now : UInt32) (hnow : now < (latestOrder history).2) (reply : Except FanError Unit) :
    Lawful history [⟨.utc, now⟩, ⟨.setFanSpeed (latestOrder history).1, reply⟩]
      (reply.map fun _ => (latestOrder history).1)
  /-- There is no reading. -/
  | unread (now : UInt32) (hnow : ¬now < (latestOrder history).2) (error : FanError) :
    Lawful history [⟨.utc, now⟩, ⟨.temperature, .error error⟩] (.error error)
  /-- The speed follows the readings. -/
  | ruled (now : UInt32) (hnow : ¬now < (latestOrder history).2) (reading : Int32)
    (reply : Except FanError Unit) :
    Lawful history
      [⟨.utc, now⟩, ⟨.temperature, .ok reading⟩,
        ⟨.setFanSpeed (ruledSpeed history reading), reply⟩]
      (reply.map fun _ => ruledSpeed history reading)

/-- A fan control among its peripherals, with what has happened so far. -/
structure Session (σ : Type) where
  control : FanControl
  peripherals : σ
  /-- What has happened, the latest last. -/
  history : List Occurrence

namespace Session

variable {σ : Type}

def start (peripherals : σ) : Session σ where
  control := .new
  peripherals := peripherals
  history := []

def act (environment : Environment σ) (session : Session σ) : Action σ → Session σ
  | .update =>
    let result := session.control.update.run environment session.peripherals
    let events := session.control.update.trace environment session.peripherals
    { control := result.1.2
      peripherals := result.2
      history := session.history ++ [.update events] }
  | .poll =>
    let result := session.control.poll.run environment session.peripherals
    let events := session.control.poll.trace environment session.peripherals
    { control := result.1
      peripherals := result.2
      history := session.history ++ [.update events] }
  | .call request =>
    let result := environment.answer request session.peripherals
    { session with
      peripherals := result.2
      history := session.history ++ [.call ⟨request, result.1⟩] }
  | .setMap map =>
    { session with
      control := session.control.setMap map
      history := session.history ++ [.setMap map] }
  | .setOverride rpm limit =>
    { session with
      control := session.control.setOverride rpm limit
      history := session.history ++ [.setOverride rpm limit] }
  | .change change =>
    { session with
      peripherals := change session.peripherals
      history := session.history ++ [.other] }

def run (environment : Environment σ) (session : Session σ) (actions : List (Action σ)) :
    Session σ :=
  actions.foldl (act environment) session

end Session

/-- The control keeps what it needs to know of a history. -/
structure Tracks (control : FanControl) (history : List Occurrence) : Prop where
  samples : control.samples.Follows (readings history)
  map_eq : control.map = latestMap history
  order_eq : (control.overrideRpm, control.overrideEnd) = latestOrder history

theorem tracks_new : new.Tracks [] where
  samples := follows_new
  map_eq := rfl
  order_eq := rfl

section History

variable (history : List Occurrence) (occurrence : Occurrence)

theorem readings_concat :
    readings (history ++ [occurrence]) = readings history ++ occurrence.readings := by
  simp [readings]

theorem latestMap_concat :
    latestMap (history ++ [occurrence]) = occurrence.map?.getD (latestMap history) := by
  cases h : occurrence.map? <;> simp [latestMap, h]

theorem latestOrder_concat :
    latestOrder (history ++ [occurrence]) = occurrence.order?.getD (latestOrder history) := by
  cases h : occurrence.order? <;> simp [latestOrder, h]

end History

/-- The fan is driven by one call, and a failure of the call is reported. -/
theorem ensures_drive (rpm : UInt16) (post : List Event → Except FanError UInt16 → Prop) :
    (drive rpm).Ensures post ↔ ∀ reply : Except FanError Unit,
      post [⟨.setFanSpeed rpm, reply⟩] (reply.map fun _ => rpm) := by
  rw [drive, perform_eq, call_bind, ensures_call]
  refine forall_congr' fun reply => ?_
  cases reply with
  | error error => rfl
  | ok done => rfl

namespace Tracks

variable {control control' : FanControl} {history : List Occurrence} {occurrence : Occurrence}

/-- Something happens, of which the control has learnt what it needs to know. -/
theorem concat (h : control.Tracks history)
    (hsamples : control'.samples.Follows (readings history ++ occurrence.readings))
    (hmap : control'.map = occurrence.map?.getD control.map)
    (horder : (control'.overrideRpm, control'.overrideEnd) =
      occurrence.order?.getD (control.overrideRpm, control.overrideEnd)) :
    control'.Tracks (history ++ [occurrence]) where
  samples := readings_concat history occurrence ▸ hsamples
  map_eq := by rw [latestMap_concat, hmap, h.map_eq]
  order_eq := by rw [latestOrder_concat, horder, h.order_eq]

/-- Something happens without a reading, and the samples stay as they are. -/
theorem concat_of_readings_eq_nil (h : control.Tracks history)
    (hreadings : occurrence.readings = []) (hsamples : control'.samples = control.samples)
    (hmap : control'.map = occurrence.map?.getD control.map)
    (horder : (control'.overrideRpm, control'.overrideEnd) =
      occurrence.order?.getD (control.overrideRpm, control.overrideEnd)) :
    control'.Tracks (history ++ [occurrence]) := by
  refine h.concat ?_ hmap horder
  rw [hsamples, hreadings, List.append_nil]
  exact h.samples

/-- The average after one more reading gives the speed of the law. -/
theorem speedFor_average (h : control.Tracks history) (reading : Int32) :
    control.map.speedFor (control.samples.push reading).average.toInt =
      ruledSpeed history reading := by
  have hwindow := (h.samples.push reading).window (by simp)
  rw [ruledSpeed, toInt_average, hwindow, h.map_eq]

/-- A step follows the law, after which the control knows of it, and the samples have changed only
if there was a reading. -/
theorem update (h : control.Tracks history) :
    control.update.Ensures fun events result =>
      Lawful history events result.1 ∧ result.2.Tracks (history ++ [.update events]) ∧
        (events.filterMap Event.reading? = [] → result.2.samples = control.samples) := by
  have hrpm : control.overrideRpm = (latestOrder history).1 := congrArg Prod.fst h.order_eq
  have hlimit : control.overrideEnd = (latestOrder history).2 := congrArg Prod.snd h.order_eq
  rw [FanControl.update]
  intro now
  show Ensures (if control.overrideActive now = true then _ else _) _
  split
  next hactive =>
    -- the order is still to be kept, so the sensor is not asked
    have hnow : now < (latestOrder history).2 := hlimit ▸ of_decide_eq_true hactive
    rw [ensures_bind, hrpm, ensures_drive]
    intro reply
    exact ⟨.ordered now hnow reply, h.concat_of_readings_eq_nil rfl rfl rfl rfl, fun _ => rfl⟩
  next hactive =>
    have hnow : ¬now < (latestOrder history).2 := by
      rw [← hlimit]
      exact fun hnow => hactive (decide_eq_true hnow)
    rintro (error | reading)
    case error =>
      exact ⟨.unread now hnow error, h.concat_of_readings_eq_nil rfl rfl rfl rfl, fun _ => rfl⟩
    case ok =>
      -- the reading is among the samples before the fan is asked, and stays there if it fails
      show Ensures (drive _ >>= _) _
      rw [ensures_bind, h.speedFor_average reading, ensures_drive]
      intro reply
      exact ⟨.ruled now hnow reading reply, h.concat (h.samples.push reading) rfl rfl,
        fun hnil => absurd hnil (List.cons_ne_nil reading [])⟩

end Tracks

namespace Session

variable {σ : Type}

/-- A poll is an update whose result is dropped. -/
theorem act_poll (environment : Environment σ) (session : Session σ) :
    session.act environment .poll = session.act environment .update := by
  simp [act, poll]

/-- Whatever happens, the control keeps track of it, and only a reading changes the samples. -/
theorem tracks_act (environment : Environment σ) {session : Session σ}
    (h : session.control.Tracks session.history) (action : Action σ) :
    let next := session.act environment action
    next.control.Tracks next.history ∧
      (readings next.history = readings session.history →
        next.control.samples = session.control.samples) := by
  intro next
  obtain ⟨-, htracks, hsamples⟩ := h.update.run environment session.peripherals
  -- of a step it matters whether it has added a reading to the history
  have hkept : readings (session.history ++
        [.update (session.control.update.trace environment session.peripherals)]) =
      readings session.history →
      (session.control.update.run environment session.peripherals).1.2.samples =
        session.control.samples := by
    intro hreadings
    rw [readings_concat] at hreadings
    exact hsamples (List.append_right_eq_self.1 hreadings)
  cases action with
  | update => exact ⟨htracks, hkept⟩
  | poll =>
    -- as a task the control only forgets the result
    dsimp only [next]
    rw [act_poll]
    exact ⟨htracks, hkept⟩
  | call request => exact ⟨h.concat_of_readings_eq_nil rfl rfl rfl rfl, fun _ => rfl⟩
  | setMap map => exact ⟨h.concat_of_readings_eq_nil rfl rfl rfl rfl, fun _ => rfl⟩
  | setOverride rpm limit => exact ⟨h.concat_of_readings_eq_nil rfl rfl rfl rfl, fun _ => rfl⟩
  | change change => exact ⟨h.concat_of_readings_eq_nil rfl rfl rfl rfl, fun _ => rfl⟩

/-- The control keeps what it needs to know in every run. -/
theorem tracks_run (environment : Environment σ) (peripherals : σ) (actions : List (Action σ)) :
    let session := (start peripherals).run environment actions
    session.control.Tracks session.history :=
  List.foldlRecOn actions (act environment)
    (motive := fun session : Session σ => session.control.Tracks session.history) tracks_new
    fun _ h action _ => (tracks_act environment h action).1

end Session

end FanControl

namespace Client

/-- An update rate leaves the samples alone. -/
theorem samples_updateRate {client : Client} {samples : Samples} (h : client.fan.samples = samples)
    (rate? : Option UInt32) :
    Ensures (match rate? with
      | some rate =>
        return if periodMin < rate then { client with updatePeriod := rate } else client
      | none => return client)
    fun _ client' => client'.fan.samples = samples := by
  cases rate? with
  | none => exact h
  | some rate => by_cases hrate : periodMin < rate <;> simpa [hrate] using h

/-- A configuration message sets the map and the order only. -/
theorem samples_apply (client : Client) (message : ConfigMessage) :
    (client.apply message).Ensures fun _ client' => client'.fan.samples = client.fan.samples := by
  rw [apply]
  cases message.speedMap <;> cases message.speedOverride
  case none.none | some.none => exact samples_updateRate rfl _
  case none.some | some.some => exact fun _ => samples_updateRate rfl _

theorem samples_receive (client : Client) :
    client.receive.Ensures fun _ client' => client'.fan.samples = client.fan.samples := by
  rw [receive, perform_eq, call_bind, ensures_call]
  rintro (error | _ | delivery)
  case error | ok.none => exact rfl
  case ok.some =>
    rw [done_bind]
    dsimp only
    rw [ensures_bind, configure]
    cases ConfigMessage.ofJson? _ with
    | none => rfl
    | some message =>
      rw [ensures_bind]
      exact (client.samples_apply message).mono fun _ _ h => h

theorem samples_publishTelemetry (client : Client) :
    client.publishTelemetry.Ensures fun _ result => result.2.fan.samples = client.fan.samples := by
  rw [publishTelemetry, ensures_bind]
  refine ensures_of_forall fun _ result => ?_
  cases result with
  | error error => rfl
  | ok payload =>
    dsimp only
    cases identityResult client.identity.publishTopic with
    | error error => rfl
    | ok topic => exact fun _ => rfl

/-- A step of the client, readings for telemetry included, leaves the samples as they are. -/
theorem samples_step (client : Client) :
    client.step.Ensures fun _ client' => client'.fan.samples = client.fan.samples := by
  rw [step]
  cases client.phase with
  | start | error => rfl
  | getTime =>
    dsimp only
    split_ifs
    case pos => rfl
    case neg =>
      intro now
      show Ensures (if now = 0 then _ else _) _
      split_ifs
      · exact fun _ => rfl
      · rfl
  | connect =>
    dsimp only
    split_ifs
    case pos => rfl
    case neg =>
      -- whatever comes of the attempt, only the state and the pause change
      rw [ensures_bind]
      refine ensures_of_forall fun _ result => ?_
      cases result with
      | ok done => rfl
      | error error => cases error <;> rfl
  | run =>
    dsimp only
    rintro (_ | _)
    · show Ensures (if client.wait.held = true then _ else _) _
      split_ifs
      · exact client.samples_receive
      · rw [ensures_bind]
        exact (samples_publishTelemetry _).mono fun _ _ h => h
    · rfl

end Client

namespace FanControl

/-- How a control goes on after a history, and how it has come there. -/
structure Governed {σ : Type} (environment : Environment σ) (session : Session σ) : Prop where
  /-- The samples are the last readings, also where the fan has failed after a reading. -/
  follows : session.control.samples.Follows (readings session.history)
  /-- The next step follows the law. -/
  lawful :
    Lawful session.history (session.control.update.trace environment session.peripherals)
      (session.control.update.run environment session.peripherals).1.1
  /-- As a task it makes the same step. -/
  poll : session.act environment .poll = session.act environment .update
  /-- Whatever happens without a reading leaves the samples as they are. -/
  kept : ∀ action,
    readings (session.act environment action).history = readings session.history →
      (session.act environment action).control.samples = session.control.samples
  /-- So do the steps of the client, which reads the temperature as well. -/
  client : ∀ client : Client, client.fan = session.control →
    (client.step.run environment session.peripherals).1.fan.samples = session.control.samples
  /-- The mean by which a reading is ruled lies between the readings it is made of. -/
  between : ∀ reading,
    let window := lastReadings (readings session.history ++ [reading])
    window.length = size ∧
      ∀ low high, (∀ entry ∈ window, low ≤ entry.toInt ∧ entry.toInt ≤ high) →
        low ≤ mean window ∧ mean window ≤ high

/-- The control law holds in every run, whatever fails, is ordered, set or read by others in
between. -/
theorem session_governed {σ : Type} (environment : Environment σ) (peripherals : σ)
    (actions : List (Action σ)) :
    Governed environment ((Session.start peripherals).run environment actions) := by
  have htracks := Session.tracks_run environment peripherals actions
  generalize (Session.start peripherals).run environment actions = session at htracks
  have hstep := htracks.update.run environment session.peripherals
  constructor
  case follows => exact htracks.samples
  case lawful => exact hstep.1
  case poll => exact session.act_poll environment
  case kept => exact fun action => (Session.tracks_act environment htracks action).2
  case client =>
    rintro client hfan
    rw [← hfan]
    exact client.samples_step.run environment session.peripherals
  case between =>
    intro reading window
    -- the window is that of the samples after the reading
    have hwindow := (htracks.samples.push reading).window (by simp)
    have hlength : window.length = size :=
      (congrArg List.length hwindow).symm.trans (length_window _)
    exact ⟨hlength, fun low high h => mean_between hlength h⟩

end FanControl

end SecureKit
