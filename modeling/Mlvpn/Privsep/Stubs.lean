import Mlvpn.Privsep.Parent

/-! # The unprivileged process

The functions by which the child asks the father, in `privsep.c`: each writes a
command to the socket and reads the answer, and a descriptor comes with
`receive_fd`.  A string is written with the byte that ends it.  Everything the child
writes is taken, and the memory for a list of addresses is there.
-/

namespace Mlvpn.Privsep

open Library Library.Program Library.Bytes

/-- What travels from the father to the child: bytes, and descriptors that are attached to the
    byte after them. -/
inductive Item where
  | byte (b : UInt8)
  | rights (fd : Int)
  deriving DecidableEq

/-- The child: its end of the socket pair, what it has written and what it has not read. -/
structure Child where
  privFd : Int
  written : List UInt8
  incoming : List Item
  deriving DecidableEq

/-- How a call may end otherwise than by returning. -/
inductive Failure where
  | exit (status : Nat)
  | errx (message : String)
  /-- `receive_fd` has got no answer, and looks at a variable that was not written. -/
  | uninitialised
  deriving DecidableEq

abbrev Stub := Program Child Failure

/-- The value of the enumerator. -/
def CmdType.value : CmdType → Int
  | .openConfig => 0
  | .initScript => 1
  | .openTun => 2
  | .runScript => 3
  | .reloadResolver => 4
  | .getaddrinfo => 5
  | .setRunningState => 6

/-- The next `n` bytes.  A descriptor that is read over is lost. -/
def takeBytes : List Item → Nat → Option (List UInt8 × List Item)
  | items, 0 => some ([], items)
  | [], _ + 1 => none
  | .byte b :: rest, n + 1 => (takeBytes rest n).map fun taken => (b :: taken.1, taken.2)
  | .rights _ :: rest, n + 1 => takeBytes rest (n + 1)

namespace Stub

/-- The test that every function begins with. -/
def unprivileged (name : String) : Stub Unit := do
  let c ← get
  exitIf (c.privFd < 0) (.errx (name ++ ": called from privileged portion"))

/-- `must_write`. -/
def mustWrite (bytes : List UInt8) : Stub Unit :=
  modify fun c => { c with written := c.written ++ bytes }

def mustWriteInt (e : Endian) (x : Int) : Stub Unit := mustWrite (intBytes e x)

def mustWriteSize (e : Endian) (n : Nat) : Stub Unit := mustWrite (hostBytes e 8 n)

/-- Writes the length of a string and the string. -/
def mustWriteString (e : Endian) (s : CString) : Stub Unit := do
  mustWriteSize e (s.length + 1)
  mustWrite (s ++ [0])

/-- The bytes of the next `n`, and what is left of the socket. -/
def mustTake (items : List Item) (n : Nat) (short : Failure) : Stub (List UInt8) :=
  match takeBytes items n with
  | none => throw short
  | some (bytes, rest) => do
      modify fun c => { c with incoming := rest }
      return bytes

/-- `must_read`. -/
def mustRead (n : Nat) : Stub (List UInt8) := do
  let c ← get
  mustTake c.incoming n (.exit 0)

def mustReadInt (e : Endian) : Stub Int := do
  let bytes ← mustRead 4
  return toInt e bytes

def mustReadSize (e : Endian) : Stub Nat := do
  let bytes ← mustRead 8
  return ofHost e bytes

/-- The descriptor that is attached to the next byte. -/
def control : List Item → Option Int × List Item
  | .rights fd :: rest => (some fd, rest)
  | items => (none, items)

/-- `receive_fd`. -/
def receiveFd (e : Endian) : Stub Int := do
  let c ← get
  let (cmsg, items) := control c.incoming
  let bytes ← mustTake items 4 .uninitialised
  return if toInt e bytes = 0 then cmsg.getD (-1) else -1

/-- `priv_open_config`. -/
def privOpenConfig (e : Endian) (configPath : CString) : Stub Int := do
  unprivileged "priv_open_config"
  mustWriteInt e CmdType.openConfig.value
  mustWriteString e configPath
  receiveFd e

/-- The length of a string that may be missing, and the string. -/
def mustWriteOptional (e : Endian) : Option CString → Stub Unit
  | none => mustWriteSize e 0
  | some s => mustWriteString e s

/-- The end of `priv_open_tun`, with what it leaves in the buffer of the name. -/
def receiveTun (e : Endian) (devname : Option CString) : Stub (Int × Option CString) := do
  let len ← mustReadSize e
  (if 0 < len ∧ len < ifNamSiz ∧ devname ≠ none then do
      let bytes ← mustRead len
      let fd ← receiveFd e
      return (fd, some ((bytes.take (len - 1)).takeWhile (· ≠ 0)))
    else if len ≤ 0 then return (len, devname)
    else throw (.errx "priv_open_tun: device name returned by privileged service is too long."))

/-- `priv_open_tun`. -/
def privOpenTun (e : Endian) (tuntapmode : Int) (devname : Option CString) (mtu : Int) :
    Stub (Int × Option CString) := do
  unprivileged "priv_open_tun"
  mustWriteInt e CmdType.openTun.value
  mustWriteInt e tuntapmode
  mustWriteOptional e devname
  mustWriteInt e mtu
  receiveTun e devname

def mustReadAddrInfo (e : Endian) : Stub AddrInfo := do
  let flags ← mustReadInt e
  let family ← mustReadInt e
  let socktype ← mustReadInt e
  let protocol ← mustReadInt e
  let addrlen ← mustRead 4
  let addr ← mustRead (ofHost e addrlen)
  return ⟨flags, family, socktype, protocol, addr⟩

def mustReadAddrInfos (e : Endian) : Nat → Stub (List AddrInfo)
  | 0 => pure []
  | n + 1 => do
      let first ← mustReadAddrInfo e
      let rest ← mustReadAddrInfos e n
      return first :: rest

/-- The end of `priv_getaddrinfo`, with the list that it stores, if it stores one.  The
    number of addresses is returned as an `int`. -/
def receiveAddresses (e : Endian) : Stub (Int × Option (List AddrInfo)) := do
  let retLen ← mustReadSize e
  (if retLen = 0 then return (0, none)
    else do
      let found ← mustReadAddrInfos e retLen
      return ((retLen : Int).bmod (2 ^ 32), some found))

/-- `strlcpy` to a buffer of `MLVPN_MAXHNAMSTR` bytes. -/
def hnamCopy (name : CString) : CString := name.take (maxHNamStr - 1)

/-- `priv_getaddrinfo`. -/
def privGetaddrinfo (e : Endian) (host serv : Option CString) (hints : List UInt8) :
    Stub (Int × Option (List AddrInfo)) := do
  unprivileged "priv_getaddrinfo"
  mustWriteInt e CmdType.getaddrinfo.value
  mustWriteOptional e (host.map hnamCopy)
  mustWriteOptional e (serv.map hnamCopy)
  mustWrite hints
  receiveAddresses e

/-- The end of `priv_init_script`: an empty message is no error. -/
def receiveMessage (e : Endian) : Stub Int := do
  let answered ← mustReadSize e
  exitIf (answered ≤ 0) (.errx "priv_init_script: invalid answer from server")
  let len := if errMsgSiz < answered then errMsgSiz else answered
  let bytes ← mustRead len
  return if (bytes.take (len - 1)).takeWhile (· ≠ 0) = [] then 0 else -1

/-- `priv_init_script`. -/
def privInitScript (e : Endian) (path : CString) : Stub Int := do
  unprivileged "priv_init_script"
  mustWriteInt e CmdType.initScript.value
  mustWriteString e path
  receiveMessage e

def mustWriteStrings (e : Endian) : List CString → Stub Unit
  | [] => pure ()
  | s :: rest => do
      mustWriteString e s
      mustWriteStrings e rest

/-- The number of strings, and the strings. -/
def mustWriteCounted (e : Endian) (strings : List CString) : Stub Unit := do
  mustWriteInt e strings.length
  mustWriteStrings e strings

/-- `priv_run_script`. -/
def privRunScript (e : Endian) (argv env : List CString) : Stub Int := do
  unprivileged "priv_run_script"
  mustWriteInt e CmdType.runScript.value
  mustWriteCounted e argv
  mustWriteCounted e env
  mustReadInt e

/-- `priv_reload_resolver`. -/
def privReloadResolver (e : Endian) : Stub Unit := do
  unprivileged "priv_reload_resolver"
  mustWriteInt e CmdType.reloadResolver.value

/-- `priv_set_running_state`. -/
def privSetRunningState (e : Endian) : Stub Unit := do
  unprivileged "priv_set_running_state"
  mustWriteInt e CmdType.setRunningState.value

end Stub

/-- A call of one of the functions. -/
inductive Call where
  | openConfig (configPath : CString)
  | openTun (tuntapmode : Int) (devname : Option CString) (mtu : Int)
  | initScript (path : CString)
  | getaddrinfo (host serv : Option CString) (hints : List UInt8)
  | runScript (argv env : List CString)
  | reloadResolver
  | setRunningState
  deriving DecidableEq

/-- What a call gives its caller. -/
inductive Returned where
  | value (n : Int)
  /-- The value, and the name in the caller's buffer -/
  | device (fd : Int) (name : Option CString)
  /-- The value, and the list if the caller's pointer was set -/
  | addresses (n : Int) (found : Option (List AddrInfo))
  | nothing
  deriving DecidableEq

def Call.stub (e : Endian) : Call → Stub Returned
  | .openConfig configPath => do
      let fd ← Stub.privOpenConfig e configPath
      return .value fd
  | .openTun tuntapmode devname mtu => do
      let (fd, name) ← Stub.privOpenTun e tuntapmode devname mtu
      return .device fd name
  | .initScript path => do
      let code ← Stub.privInitScript e path
      return .value code
  | .getaddrinfo host serv hints => do
      let (n, found) ← Stub.privGetaddrinfo e host serv hints
      return .addresses n found
  | .runScript argv env => do
      let retval ← Stub.privRunScript e argv env
      return .value retval
  | .reloadResolver => do
      Stub.privReloadResolver e
      return .nothing
  | .setRunningState => do
      Stub.privSetRunningState e
      return .nothing

end Mlvpn.Privsep
