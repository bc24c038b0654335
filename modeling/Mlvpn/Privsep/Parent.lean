import Mlvpn.Library.Bytes
import Mlvpn.Library.Program

/-! # The privileged process

`privsep.c`: after the fork of `priv_init` the father keeps its privileges and serves the
commands that arrive from the unprivileged child over a socket pair.  The child may be
compromised, so the socket delivers any bytes.

Whatever the father asks of its surroundings is answered by a `Kernel`, by the number of
questions asked so far.  One of the questions is whether the handler of `SIGCHLD` has just
run: it is asked before every access to `cur_state`, the only variable that the handler
shares with the loop.  The buffers `path`, `tuntapname`, `hostname` and `servname` are
terminated at the length just read, so what an earlier command left in them is never seen.
-/

namespace Mlvpn.Privsep

open Library Library.Program Library.Bytes

/-- A string of C, without the byte that ends it. -/
abbrev CString := List UInt8

/-- `enum priv_state`. -/
inductive PrivState where
  /-- just started up -/
  | init
  /-- parsing config file for first time -/
  | config
  /-- running and accepting network traffic -/
  | running
  /-- shutting down -/
  | quit
  deriving Repr, DecidableEq

/-- The value of the enumerator, by which the states are compared. -/
def PrivState.value : PrivState → Nat
  | init => 0
  | config => 1
  | running => 2
  | quit => 3

/-- `enum cmd_types`. -/
inductive CmdType where
  | openConfig
  | initScript
  | openTun
  | runScript
  | reloadResolver
  | getaddrinfo
  | setRunningState
  deriving Repr, DecidableEq

def CmdType.ofInt : Int → Option CmdType
  | 0 => some .openConfig
  | 1 => some .initScript
  | 2 => some .openTun
  | 3 => some .runScript
  | 4 => some .reloadResolver
  | 5 => some .getaddrinfo
  | 6 => some .setRunningState
  | _ => none

/-- `MAXPATHLEN`, the size of `path`, `allowed_configfile` and `script_path`. -/
def maxPathLen : Nat := 4096

/-- `MLVPN_IFNAMSIZ`. -/
def ifNamSiz : Nat := 16

/-- `MLVPN_MAXHNAMSTR`. -/
def maxHNamStr : Nat := 256

/-- `ERRMSGSIZ`. -/
def errMsgSiz : Nat := 8192

/-- `sizeof(struct addrinfo)`. -/
def sizeofAddrinfo : Nat := 48

/-- The fields of `struct stat` that say who may do what with a file.  Nobody here reads
    the owner. -/
structure Stat where
  mode : Nat
  uid : Nat
  deriving Repr, DecidableEq

/-- An element of the list that `getaddrinfo` returns. -/
structure AddrInfo where
  flags : Int
  family : Int
  socktype : Int
  protocol : Int
  addr : List UInt8
  deriving Repr, DecidableEq

/-- What the surroundings of the father answer to its questions, by their number. -/
structure Kernel where
  /-- The byte order of the host -/
  endian : Endian
  /-- The working directory of the father, which it never leaves -/
  cwd : CString
  /-- Whether `sig_got_chld` has just run and has reaped the child -/
  chld : Nat → Bool
  /-- The descriptor that `open` returns -/
  openFd : Nat → Int
  /-- The file that `stat` finds, or the text of its error -/
  stat : Nat → Except CString Stat
  /-- The descriptor that `root_tuntap_open` returns, and the name it leaves -/
  tuntap : Nat → Int × CString
  /-- The addresses that `getaddrinfo` finds, none where it fails -/
  getaddrinfo : Nat → List AddrInfo
  /-- Whether there is memory for this many pointers -/
  calloc : Nat → Int → Bool
  /-- Whether there is memory for this many bytes -/
  malloc : Nat → Nat → Bool
  /-- Whether the child's end takes what is written to it -/
  write : Nat → Bool
  /-- The status that `root_launch_script` returns -/
  script : Nat → Int

/-- The variables of the father that outlive a command. -/
structure Memory where
  curState : PrivState
  allowedConfigfile : CString
  scriptPath : CString
  deriving Repr, DecidableEq

/-- What the father does, in its memory or to its surroundings. -/
inductive Effect where
  /-- `sig_got_chld` has reaped the child. -/
  | chld
  /-- `increase_state` has found that it may go to the state. -/
  | increases (state : PrivState)
  /-- `increase_state` has stored the state. -/
  | enters (state : PrivState)
  /-- A path was copied to `allowed_configfile`. -/
  | configfile
  /-- A path was copied to `script_path`. -/
  | scriptPath
  | openFile (path : CString)
  | tuntapOpen (mode : Int) (name : CString) (mtu : Int)
  /-- `stat` was called in the directory. -/
  | stat (directory path : CString) (answer : Except CString Stat)
  /-- `execv` was called in the directory, by a process forked for it. -/
  | launchScript (directory path : CString) (argv env : List CString)
  | getaddrinfo (hostname servname : Option CString) (hints : List UInt8)
  | resInit
  | write (bytes : List UInt8)
  | sendFd (fd : Int)
  deriving DecidableEq

/-- An effect, with the memory after it. -/
structure Entry where
  effect : Effect
  memory : Memory
  deriving DecidableEq

/-- The father: what the child has sent and is still unread, the number of questions
    asked, the memory and all that happened, the latest first. -/
structure Parent where
  input : List UInt8
  clock : Nat
  memory : Memory
  trace : List Entry
  deriving DecidableEq

/-- How the father ends. -/
inductive Exit where
  | exit (status : Nat)
  | errx (message : String)
  | errxCommand (cmd : Int)
  | fatalx (message : String)
  deriving Repr, DecidableEq

abbrev Root := Program Parent Exit

/-- The father before it has served anything. -/
def Parent.start (stream : List UInt8) : Parent :=
  { input := stream, clock := 0, memory := ⟨.init, [], []⟩, trace := [] }

/-- Changes the memory and puts the effect on record. -/
def Parent.record (p : Parent) (effect : Effect) (memory : Memory) : Parent :=
  { p with memory := memory, trace := ⟨effect, memory⟩ :: p.trace }

/-- Puts an effect on record that leaves the memory alone. -/
def Parent.log (p : Parent) (effect : Effect) : Parent := p.record effect p.memory

def Parent.setState (p : Parent) (effect : Effect) (state : PrivState) : Parent :=
  p.record effect { p.memory with curState := state }

/-- `sig_got_chld`, when it reaps the child. -/
def Parent.sigGotChld (p : Parent) : Parent := p.setState .chld .quit

/-- Asks the surroundings. -/
def ask {α : Type} (answer : Nat → α) : Root α := do
  let p ← get
  modify fun p => { p with clock := p.clock + 1 }
  return answer p.clock

def emit (effect : Effect) : Root Unit := modify fun p => p.log effect

/-- The handler of `SIGCHLD` runs here, or it does not. -/
def interrupt (k : Kernel) : Root Unit := do
  let struck ← ask k.chld
  (if struck then modify Parent.sigGotChld else pure ())

/-- The value of `cur_state`, with the handler running just before or not. -/
def readState (k : Kernel) : Root PrivState := do
  interrupt k
  let p ← get
  return p.memory.curState

/-- `increase_state`: the test and the store are two accesses.  No argument lies outside
    the enumeration. -/
def increaseState (k : Kernel) (state : PrivState) : Root Unit := do
  let curState ← readState k
  exitIf (state.value ≤ curState.value) (.errx "attempt to decrease or match current state")
  emit (.increases state)
  interrupt k
  modify fun p => p.setState (.enters state) state

/-- Reads `n` bytes or exits. -/
def read (n : Nat) (short : Exit) : Root (List UInt8) := do
  let p ← get
  exitIf (p.input.length < n) short
  modify fun p => { p with input := p.input.drop n }
  return p.input.take n

/-- `must_read`. -/
def mustRead (n : Nat) : Root (List UInt8) := read n (.exit 0)

/-- A value of type `int` from its bytes. -/
def toInt (e : Endian) (bytes : List UInt8) : Int := (ofHost e bytes : Int).bmod (2 ^ 32)

/-- The bytes of a value of type `int`. -/
def intBytes (e : Endian) (x : Int) : List UInt8 := hostBytes e 4 (x % 2 ^ 32).toNat

def mustReadInt (k : Kernel) : Root Int := do
  let bytes ← mustRead 4
  return toInt k.endian bytes

/-- Reads a `size_t`. -/
def mustReadSize (k : Kernel) : Root Nat := do
  let bytes ← mustRead 8
  return ofHost k.endian bytes

/-- Reads `len` bytes into a buffer, whose last byte is then set to zero. -/
def mustReadString (len : Nat) : Root CString := do
  let bytes ← mustRead len
  return (bytes.take (len - 1)).takeWhile (· ≠ 0)

/-- `must_write`. -/
def mustWrite (k : Kernel) (bytes : List UInt8) : Root Unit := do
  let taken ← ask k.write
  exitIf (taken = false) (.exit 0)
  emit (.write bytes)

def mustWriteSize (k : Kernel) (n : Nat) : Root Unit := mustWrite k (hostBytes k.endian 8 n)

/-- Writes a string with the byte that ends it. -/
def mustWriteString (k : Kernel) (s : CString) : Root Unit := mustWrite k (s ++ [0])

def Parent.setAllowedConfigfile (p : Parent) (path : CString) : Parent :=
  p.record .configfile { p.memory with allowedConfigfile := path }

def Parent.setScriptPath (p : Parent) (path : CString) : Parent :=
  p.record .scriptPath { p.memory with scriptPath := path }

/-- `root_open_file`: the path must not start with `|`. -/
def rootOpenFile (k : Kernel) (path : CString) : Root Int :=
  if path.head? = some 124 then pure (-1)
  else do
    emit (.openFile path)
    ask k.openFd

/-- `PRIV_OPEN_CONFIG`. -/
def openConfig (k : Kernel) : Root Unit := do
  let len ← mustReadSize k
  exitIf (len = 0 ∨ maxPathLen < len) (.exit 0)
  let path ← mustReadString len
  let curState ← readState k
  (if curState = .config then modify fun p => p.setAllowedConfigfile (path.take (len - 1))
    else pure ())
  let p ← get
  exitIf (p.memory.allowedConfigfile = []) (.fatalx "empty configuration file path")
  let fd ← rootOpenFile k p.memory.allowedConfigfile
  emit (.sendFd fd)

/-- The beginning of the commands that are not allowed when running. -/
def requireConfig (k : Kernel) : Root Unit := do
  let curState ← readState k
  exitIf (curState ≠ .config) (.exit 0)

/-- `PRIV_OPEN_TUN`, where it is allowed.  The modes are `MLVPN_TUNTAPMODE_TUN` and
    `MLVPN_TUNTAPMODE_TAP`. -/
def openTunAllowed (k : Kernel) : Root Unit := do
  let tuntapmode ← mustReadInt k
  exitIf (tuntapmode ≠ 0 ∧ tuntapmode ≠ 1) (.exit 0)
  let len ← mustReadSize k
  exitIf (ifNamSiz < len) (.exit 0)
  let tuntapname ← (if 0 < len then mustReadString len else pure [])
  let mtu ← mustReadInt k
  exitIf (mtu < 0 ∨ 1500 < mtu) (.fatalx "priv_open_tun: wrong mtu.")
  emit (.tuntapOpen tuntapmode tuntapname mtu)
  let (fd, name) ← ask k.tuntap
  (if fd < 0 then mustWriteSize k 0
    else do
      mustWriteSize k (name.length + 1)
      mustWriteString k name
      emit (.sendFd fd))

/-- `PRIV_OPEN_TUN`: "we should not re-open the tuntap device ever!" -/
def openTun (k : Kernel) : Root Unit := do
  requireConfig k
  openTunAllowed k

def text (s : String) : CString := s.toUTF8.toList

/-- Nobody but the owner has any permission. -/
def Stat.Private (st : Stat) : Prop := st.mode &&& 0o077 = 0

/-- The owner may execute the file. -/
def Stat.Executable (st : Stat) : Prop := st.mode &&& 0o100 ≠ 0

instance (st : Stat) : Decidable st.Private := inferInstanceAs (Decidable (_ = _))

instance (st : Stat) : Decidable st.Executable := inferInstanceAs (Decidable (_ ≠ _))

/-- What is wrong with a script, if anything. -/
def errormessage (path : CString) : Except CString Stat → Option CString
  | .error reason =>
      some ((text "Unable to open file " ++ path ++ text ":" ++ reason).take (errMsgSiz - 1))
  | .ok st =>
      if ¬ st.Private then
        some ((path ++ text " is group/other accessible").take (errMsgSiz - 1))
      else if ¬ st.Executable then
        some ((path ++ text " is not executable").take (errMsgSiz - 1))
      else none

/-- `PRIV_INIT_SCRIPT`, where it is allowed. -/
def initScriptAllowed (k : Kernel) : Root Unit := do
  let len ← mustReadSize k
  exitIf (len = 0 ∨ maxPathLen < len) (.exit 0)
  let path ← mustReadString len
  let answer ← ask k.stat
  emit (.stat k.cwd path answer)
  (if errormessage path answer = none then modify fun p => p.setScriptPath (path.take (len - 1))
    else pure ())
  let message := (errormessage path answer).getD []
  mustWriteSize k (message.length + 1)
  mustWriteString k message

/-- `PRIV_INIT_SCRIPT`: "Not allowed to change script path when running for security
    reasons". -/
def initScript (k : Kernel) : Root Unit := do
  requireConfig k
  initScriptAllowed k

/-- A name for `getaddrinfo`: none or an empty one is the null pointer. -/
def mustReadName (k : Kernel) : Root (Option CString) := do
  let len ← mustReadSize k
  exitIf (maxHNamStr < len) (.exit 0)
  let name ← (if 0 < len then mustReadString len else pure [])
  return if name = [] then none else some name

def mustWriteAddrInfo (k : Kernel) (res : AddrInfo) : Root Unit := do
  mustWrite k (intBytes k.endian res.flags)
  mustWrite k (intBytes k.endian res.family)
  mustWrite k (intBytes k.endian res.socktype)
  mustWrite k (intBytes k.endian res.protocol)
  mustWrite k (hostBytes k.endian 4 res.addr.length)
  mustWrite k res.addr

def mustWriteAddrInfos (k : Kernel) : List AddrInfo → Root Unit
  | [] => pure ()
  | res :: rest => do
      mustWriteAddrInfo k res
      mustWriteAddrInfos k rest

/-- `PRIV_GETADDRINFO`. -/
def getaddrinfo (k : Kernel) : Root Unit := do
  let phostname ← mustReadName k
  let pservname ← mustReadName k
  let hints ← mustRead sizeofAddrinfo
  emit (.getaddrinfo phostname pservname hints)
  let res0 ← ask k.getaddrinfo
  mustWriteSize k res0.length
  mustWriteAddrInfos k res0

/-- Memory for `n` pointers.  The sum `script_argc + 1` overflows for the largest `int`;
    then the answer stands for whatever `calloc` makes of it. -/
def mustCalloc (k : Kernel) (n : Int) : Root Unit := do
  let memory ← ask k.calloc
  exitIf (memory n = false) (.exit 0)

def mustReadStrings (k : Kernel) : Nat → Root (List CString)
  | 0 => pure []
  | n + 1 => do
      let len ← mustReadSize k
      exitIf (len ≤ 0) (.exit 0)
      let memory ← ask k.malloc
      exitIf (memory len = false) (.exit 0)
      let arg ← mustReadString len
      let rest ← mustReadStrings k n
      return arg :: rest

/-- A counted list of strings, as the arguments and the environment are sent. -/
def mustReadCounted (k : Kernel) : Root (List CString) := do
  let count ← mustReadInt k
  exitIf (count ≤ 0) (.exit 0)
  mustCalloc k (count + 1)
  mustReadStrings k count.toNat

/-- A directory is named without a slash at its end, so this is `/`. -/
def rootDirectory : CString := []

/-- The file that a path names in a directory. -/
def fileAt (directory path : CString) : CString :=
  if path.head? = some 47 then path else directory ++ 47 :: path

/-- `root_launch_script`.  The forked process changes to `/` before it executes the path. -/
def rootLaunchScript (k : Kernel) (path : CString) (argv env : List CString) : Root Int := do
  emit (.launchScript rootDirectory path argv env)
  ask k.script

/-- `PRIV_RUN_SCRIPT`. -/
def runScript (k : Kernel) : Root Unit := do
  let scriptArgv ← mustReadCounted k
  let scriptEnv ← mustReadCounted k
  let p ← get
  let status ←
    (if p.memory.scriptPath = [] then pure (-1)
      else rootLaunchScript k p.memory.scriptPath scriptArgv scriptEnv)
  mustWrite k (intBytes k.endian status)

/-- The `switch` of the command loop. -/
def dispatch (k : Kernel) (cmd : Int) : Root Unit :=
  match CmdType.ofInt cmd with
  | some .openConfig => openConfig k
  | some .openTun => openTun k
  | some .initScript => initScript k
  | some .getaddrinfo => getaddrinfo k
  | some .runScript => runScript k
  | some .reloadResolver => emit .resInit
  | some .setRunningState => increaseState k .running
  | none => throw (.errxCommand cmd)

/-- One command.  Where `may_read` fails the loop is left, and then the process exits. -/
def command (k : Kernel) : Root Unit := do
  let bytes ← read 4 (.exit 1)
  dispatch k (toInt k.endian bytes)

/-- The first `n` rounds of the command loop. -/
def serve (k : Kernel) : Nat → Root Unit
  | 0 => pure ()
  | n + 1 => do
      let curState ← readState k
      exitIf (PrivState.quit.value ≤ curState.value) (.exit 1)
      command k
      serve k n

/-- `priv_init`, from where the father turns to its commands. -/
def privInit (k : Kernel) (n : Nat) : Root Unit := do
  increaseState k .config
  serve k n

end Mlvpn.Privsep
