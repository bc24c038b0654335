import Mlvpn.Control.WriteBuffer

/-! # The client of the control socket

`control.c`: one client at a time is accepted, its bytes are cut into lines, and a
line is a command that is answered.  The events are those of the loop, with the
answers of the system; a watcher that is not active is not called back.

What `mlvpn_control_write_status` and `mlvpn_control_write_metrics` print depends on
the tunnels, so it comes with the event that reads the command.
-/

namespace Mlvpn

open Library.Machine Control

def ctrlEof : UInt8 := 0x04

def ctrlTerminator : UInt8 := 10

def ctrlBufsiz : Nat := 1024

/-- Seconds. -/
def ctrlTimeout : Int := 5

/-- `struct mlvpn_control`, with what accepting and reading work on. -/
structure ControlSocket extends Control where
  /-- `mode` is not `MLVPN_CONTROL_DISABLED`. -/
  enabled : Bool
  http : Bool
  lastActivity : Int
  rbuf : Nat → UInt8
  rbufpos : Nat
  /-- Whether the watcher `client_io_read` is active -/
  ioRead : Bool
  /-- The lines passed to `mlvpn_control_parse`, the descriptors `accept` has returned,
      and those given to `close`; no function reads them. -/
  lines : List (List UInt8)
  accepted : List Int
  closed : List Int

/-- The texts of the two reports, one for each call of `mlvpn_control_write`. -/
structure Answers where
  status : List (List UInt8)
  metrics : List (List UInt8)

/-- The answer of `read`; no bytes are the end of file. -/
inductive ControlRead where
  | data (bytes : List UInt8)
  | failed (again : Bool)

namespace ControlSocket

/-- The state `mlvpn_control_init` leaves. -/
def controlInit (http : Bool) (garbage : Nat → UInt8) : ControlSocket :=
  { Control.controlInit garbage with
    enabled := true
    http := http
    lastActivity := 0
    rbuf := fun _ => 0
    rbufpos := 0
    ioRead := false
    lines := []
    accepted := []
    closed := [] }

def controlCloseClient (s : ControlSocket) : ControlSocket :=
  { s with
    toControl := Control.controlCloseClient s.toControl
    ioRead := false
    closed := if s.clientfd ≥ 0 then s.clientfd :: s.closed else s.closed }

/-- `mlvpn_control_accept`: the descriptor that `accept` returns, and whether it could be
    made non-blocking.  A second client is turned away. -/
def controlAccept (s : ControlSocket) (now : Int) : Option (Nat × Bool) → ControlSocket
  | none => s
  | some (fd, nonblocking) =>
      if ¬ s.enabled then s
      else if s.clientfd ≠ -1 then
        { s with accepted := (fd : Int) :: s.accepted, closed := (fd : Int) :: s.closed }
      else
        { s with
          toControl := Control.controlAccept s.toControl (if nonblocking then fd else -1)
          accepted := (fd : Int) :: s.accepted
          closed := if nonblocking then s.closed else (fd : Int) :: s.closed
          rbufpos := 0
          lastActivity := now
          -- the watcher is started even if there is no descriptor
          ioRead := true }

def controlTimeout (s : ControlSocket) (now : Int) : ControlSocket :=
  if s.enabled ∧ s.clientfd ≥ 0 ∧ s.lastActivity + ctrlTimeout ≤ now then s.controlCloseClient else s

/-- `mlvpn_control_write`. -/
def controlWrite (s : ControlSocket) (buf : List UInt8) : Option ControlSocket :=
  (if Exhausted s.toControl buf.length then grow s.toControl else some s.toControl).bind fun c =>
    let s := { s with toControl := c }
    if Exhausted c buf.length then some s.controlCloseClient
    else (append c buf).map fun stored => { s with toControl := stored.2 }

/-- Several texts, one after the other. -/
def controlWrites (s : ControlSocket) (bufs : List (List UInt8)) : Option ControlSocket :=
  run controlWrite s bufs

def httpHeaders : List UInt8 :=
  ("HTTP/1.1 200 OK\r\nConnection: close\r\nContent-type: application/json\r\n" ++
    "Access-Control-Allow-Origin: *\r\nServer: mlvpn\r\n\r\n").toUTF8.toList

def unknownCommand : List UInt8 := "\x7b\"error\": 'unknown command'\x7d\n".toUTF8.toList

/-- `tolower` of a byte. -/
def toLower (b : UInt8) : UInt8 := if 65 ≤ b ∧ b ≤ 90 then b + 32 else b

/-- `strcasecmp` finds no difference. -/
def Names (cmd : List UInt8) (name : String) : Prop := cmd.map toLower = name.toUTF8.toList

instance (cmd : List UInt8) (name : String) : Decidable (Names cmd name) :=
  inferInstanceAs (Decidable (_ = _))

/-- The words that `strtok` finds in a line, which ends at its first NUL and has its
    `\r` removed. -/
def words (line : List UInt8) : List (List UInt8) :=
  (((line.takeWhile (· ≠ 0)).filter (· ≠ 13)).splitOn 32).filter (· ≠ [])

/-- The command of a line: the second word of a request of HTTP. -/
def command (http : Bool) (line : List UInt8) : Option (List UInt8) :=
  if http then (words line)[1]? else (words line)[0]?

/-- What a command writes, and whether it ends the connection. -/
def reply (answers : Answers) (cmd : List UInt8) : List (List UInt8) × Bool :=
  if Names cmd "status" ∨ Names cmd "/status" then (answers.status, false)
  else if Names cmd "metrics" ∨ Names cmd "/metrics" then (answers.metrics, false)
  else if Names cmd "quit" then (["bye.".toUTF8.toList], true)
  else ([unknownCommand], false)

/-- `mlvpn_control_parse`. -/
def controlParse (s : ControlSocket) (answers : Answers) (line : List UInt8) :
    Option ControlSocket :=
  match command s.http line with
  | none => some s
  | some cmd =>
      (if s.http then s.controlWrite httpHeaders else some s).bind fun s =>
        (s.controlWrites (reply answers cmd).1).map fun s =>
          let s := if (reply answers cmd).2 then s.controlCloseClient else s
          if s.http then { s with closeAfterWrite := true } else s

/-- `mlvpn_control_read_check`.  What is moved to the front of the buffer starts with the
    terminator of the line. -/
def controlReadCheck (s : ControlSocket) (answers : Answers) : Option (Bool × ControlSocket) :=
  match (List.range s.rbufpos).find? fun i => s.rbuf i = ctrlEof ∨ s.rbuf i = ctrlTerminator with
  | none => some (false, s)
  | some i =>
      if s.rbuf i = ctrlEof then some (false, s.controlCloseClient)
      else if i < ctrlBufsiz then
        let line := (List.range i).map s.rbuf
        let s :=
          { s with
            rbuf := fun j => if j + i < ctrlBufsiz then s.rbuf (j + i) else s.rbuf j
            rbufpos := s.rbufpos - (i + 1)
            lines := s.lines ++ [line] }
        (s.controlParse answers line).map fun s => (true, s)
      else none

/-- `while (mlvpn_control_read_check(ctrl) != 0);` -/
def readLines (answers : Answers) : Nat → ControlSocket → Option ControlSocket
  | 0, _ => none
  | fuel + 1, s =>
      (s.controlReadCheck answers).bind fun result =>
        if result.1 then readLines answers fuel result.2 else some result.2

/-- `mlvpn_control_read`.  A round of the loop takes a byte at least. -/
def controlRead (s : ControlSocket) (now : Int) (result : ControlRead) (answers : Answers) :
    Option ControlSocket :=
  -- `EBADF` without a descriptor
  match if s.clientfd < 0 then .failed false else result with
  | .failed again => some (if again then s else s.controlCloseClient)
  | .data bytes =>
      let bytes := bytes.take (ctrlBufsiz - s.rbufpos)
      if bytes = [] then some { s with clientfd := -1 }
      else
        let s :=
          { s with
            lastActivity := now
            rbuf := fun i =>
              if s.rbufpos ≤ i then (bytes[i - s.rbufpos]?).getD (s.rbuf i) else s.rbuf i
            rbufpos := s.rbufpos + bytes.length }
        if s.rbufpos ≥ ctrlBufsiz then some s.controlCloseClient
        else readLines answers (s.rbufpos + 1) s

/-- The end of `mlvpn_control_send`. -/
def afterSend (s : ControlSocket) : ControlSocket :=
  let s := if s.closeAfterWrite ∧ s.wbufpos ≤ 0 then s.controlCloseClient else s
  if s.wbufpos ≤ 0 then { s with ioWrite := false } else s

/-- `mlvpn_control_send`. -/
def controlSend (s : ControlSocket) (result : Written) : ControlSocket :=
  if s.wbufpos ≤ 0 then s
  else
    match if s.clientfd < 0 then none else result with
    | none => s.controlCloseClient.afterSend
    | some n => { s with toControl := consume s.toControl (min n s.wbufpos.toNat) }.afterSend

/-- What the loop can call back for. -/
inductive Event where
  | accept (now : Int) (answer : Option (Nat × Bool))
  | read (now : Int) (result : ControlRead) (answers : Answers)
  | write (result : Written)
  | timeout (now : Int)

def step (s : ControlSocket) : Event → Option ControlSocket
  | .accept now answer => some (s.controlAccept now answer)
  | .read now result answers =>
      if s.ioRead then s.controlRead now result answers else some s
  | .write result => if s.ioWrite then some (s.controlSend result) else some s
  | .timeout now => some (s.controlTimeout now)

end ControlSocket

end Mlvpn
