import SecureKit.Protocol.Load

/-!
# Requests

The commands a host can send, and the grammar of their lines. A line is expected in lower case and
without its terminator:

* a line that starts with `l` has a library name in front, which ends at the first colon and is
  passed over;
* the selector is `s` or `e` for the device and `b` for the board, and may go on with any text up to
  a colon;
* the sub-command is one letter, and what follows it up to a load is passed over;
* the sub-command `p` of the device has sub-commands of its own, after one more colon.
-/

namespace SecureKit

/-- The data load of a command, if there is one. -/
abbrev CommandLoad := Option Bytes

/-- A command for the bus of the device. -/
inductive PhysicalCommand where
  /-- There is no second colon. -/
  | missing
  /-- Wake the device. -/
  | wake
  /-- Send a command packet, without receiving a response. -/
  | send (packet : CommandLoad)
  /-- Receive a pending response. -/
  | receive (size : CommandLoad)
  /-- Address a device; without an address, put the device in use into idle mode. -/
  | select (address : CommandLoad)
  /-- Anything else. -/
  | unknown
  deriving DecidableEq

/-- A command for the device. -/
inductive DeviceCommand where
  /-- There is no colon after the selector. -/
  | empty
  /-- Send a command packet and receive its response. -/
  | talk (packet : CommandLoad)
  /-- Wake the device. -/
  | wake
  /-- Put the device to sleep. -/
  | sleep
  /-- Put the device into idle mode. -/
  | idle
  /-- Ask for automatic waking, which is accepted and has no effect. -/
  | autoWrap (flag : CommandLoad)
  /-- A command for the bus. -/
  | physical (command : PhysicalCommand)
  /-- Anything else. -/
  | unknown
  deriving DecidableEq

/-- A command for the board. -/
inductive BoardCommand where
  /-- An application command: an opcode and its arguments. -/
  | application (load : CommandLoad)
  /-- Ask for the board version. -/
  | version
  /-- Ask for the name and version of a firmware part. -/
  | firmware (index : CommandLoad)
  /-- Look for devices and report one of them. -/
  | discover (index : CommandLoad)
  /-- Anything else. -/
  | unknown
  deriving DecidableEq

/-- A command line. -/
inductive Request where
  /-- A command for the board. -/
  | board (command : BoardCommand)
  /-- A command for the device. -/
  | device (command : DeviceCommand)
  /-- A line with another selector. -/
  | unknown
  deriving DecidableEq

/-- The part of a line after its first colon. -/
def afterColon? (line : Bytes) : Option Bytes :=
  match line.dropWhile (· ≠ Bytes.ascii ':') with
  | [] => none
  | _ :: rest => some rest

namespace PhysicalCommand

/-- The command in the text after the letter `p`. -/
def ofText (text : Bytes) : PhysicalCommand :=
  match afterColon? text with
  | none => missing
  | some [] => unknown
  | some (token :: rest) =>
    if token = Bytes.ascii 'w' then wake
    else if token = Bytes.ascii 'c' then send (Load.ofCommand? rest)
    else if token = Bytes.ascii 'r' then receive (Load.ofCommand? rest)
    else if token = Bytes.ascii 's' then select (Load.ofCommand? rest)
    else unknown

end PhysicalCommand

namespace DeviceCommand

/-- The command in a line from its selector on. -/
def ofText (text : Bytes) : DeviceCommand :=
  match afterColon? text with
  | none => empty
  | some [] => unknown
  | some (token :: rest) =>
    if token = Bytes.ascii 't' then talk (Load.ofCommand? rest)
    else if token = Bytes.ascii 'w' then wake
    else if token = Bytes.ascii 's' then sleep
    else if token = Bytes.ascii 'i' then idle
    else if token = Bytes.ascii 'a' then autoWrap (Load.ofCommand? rest)
    else if token = Bytes.ascii 'p' then physical (.ofText rest)
    else unknown

end DeviceCommand

namespace BoardCommand

/-- The command in a line from its selector on. -/
def ofText (text : Bytes) : BoardCommand :=
  match afterColon? text with
  | none | some [] => unknown
  | some (token :: rest) =>
    if token = Bytes.ascii 'a' then application (Load.ofCommand? rest)
    else if token = Bytes.ascii 'v' then version
    else if token = Bytes.ascii 'f' then firmware (Load.ofCommand? rest)
    else if token = Bytes.ascii 'd' then discover (Load.ofCommand? rest)
    else unknown

end BoardCommand

namespace Request

/-- The command in a line from its selector on. -/
def ofSelector (line : Bytes) : Request :=
  match line with
  | [] => unknown
  | selector :: _ =>
    if selector = Bytes.ascii 's' ∨ selector = Bytes.ascii 'e' then device (.ofText line)
    else if selector = Bytes.ascii 'b' then board (.ofText line)
    else unknown

/-- The command in a line in lower case, without its terminator. -/
def ofLine (line : Bytes) : Request :=
  if line.head? = some (Bytes.ascii 'l') then
    match afterColon? line with
    | none => unknown
    | some rest => ofSelector rest
  else ofSelector line

end Request

/-- The lower-case form of an ASCII letter; all other bytes stay as they are. -/
def lowerCase (c : UInt8) : UInt8 :=
  if Bytes.ascii 'A' ≤ c ∧ c ≤ Bytes.ascii 'Z' then c + (Bytes.ascii 'a' - Bytes.ascii 'A') else c

/-- A line without one terminator at its end. -/
def withoutTerminator (line : Bytes) : Bytes :=
  if line.getLast? = some Frame.terminator then line.dropLast else line

namespace Request

/-- The command in a line as it was received. -/
def ofReceived (line : Bytes) : Request := ofLine ((withoutTerminator line).map lowerCase)

/-- A terminator at the end of a line does not matter. -/
theorem ofReceived_terminated {line : Bytes} (h : line.getLast? ≠ some Frame.terminator) :
    ofReceived (line ++ [Frame.terminator]) = ofReceived line := by
  simp [ofReceived, withoutTerminator, h]

end Request

end SecureKit
