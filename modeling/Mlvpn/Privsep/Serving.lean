import Mathlib.Data.List.TakeWhile
import Mlvpn.Privsep.Stubs

/-! # What the father answers

The requests as they lie in the socket, and what the father makes of each: how far it
reads, what it sends and where it exits.  It is seen from outside, by its input, the number
of questions it has asked, its memory and what it has sent.
-/

namespace Mlvpn.Privsep

open Library Library.Program Library.Bytes

/-! ## What travels -/

/-- A string in the socket: its length with the byte that ends it, and the string. -/
def frame (e : Endian) (s : CString) : List UInt8 := hostBytes e 8 (s.length + 1) ++ (s ++ [0])

def optionalFrame (e : Endian) : Option CString → List UInt8
  | none => hostBytes e 8 0
  | some s => frame e s

/-- The number of strings, and the strings. -/
def countedFrames (e : Endian) (strings : List CString) : List UInt8 :=
  intBytes e strings.length ++ strings.flatMap (frame e)

/-- An address in the socket. -/
def AddrInfo.bytes (e : Endian) (res : AddrInfo) : List UInt8 :=
  intBytes e res.flags ++ (intBytes e res.family ++ (intBytes e res.socktype ++
    (intBytes e res.protocol ++ (hostBytes e 4 res.addr.length ++ res.addr))))

/-- What an effect puts into the socket.  `send_fd` sends `errno` where there is no
    descriptor. -/
def Effect.items (e : Endian) (errno : Int) : Effect → List Item
  | .write bytes => bytes.map .byte
  | .sendFd fd =>
      if 0 ≤ fd then .rights fd :: (intBytes e 0).map .byte else (intBytes e errno).map .byte
  | _ => []

/-- All that the father has sent, in order. -/
def Parent.sent (e : Endian) (errno : Int) (p : Parent) : List Item :=
  p.trace.reverse.flatMap fun entry => entry.effect.items e errno

theorem Parent.sent_record (e : Endian) (errno : Int) (p : Parent) (effect : Effect)
    (memory : Memory) :
    (p.record effect memory).sent e errno = p.sent e errno ++ effect.items e errno := by
  simp [Parent.sent, Parent.record]

/-- The father from outside. -/
structure View where
  input : List UInt8
  clock : Nat
  memory : Memory
  sent : List Item

def Parent.view (e : Endian) (errno : Int) (p : Parent) : View :=
  ⟨p.input, p.clock, p.memory, p.sent e errno⟩

/-! ## Values in the socket -/

/-- A value of type `int`. -/
def IsInt (x : Int) : Prop := -2 ^ 31 ≤ x ∧ x < 2 ^ 31

instance (x : Int) : Decidable (IsInt x) := inferInstanceAs (Decidable (_ ∧ _))

theorem intBytes_length (e : Endian) (x : Int) : (intBytes e x).length = 4 := by simp [intBytes]

theorem toInt_intBytes {e : Endian} {x : Int} (int : IsInt x) : toInt e (intBytes e x) = x := by
  have low : -2 ^ 31 ≤ x := int.1
  have high : x < 2 ^ 31 := int.2
  have small : (x % 2 ^ 32).toNat < 256 ^ 4 := by omega
  have same : ((x % 2 ^ 32).toNat : Int) = x % ((2 ^ 32 : Nat) : Int) := by omega
  unfold toInt intBytes
  rw [ofHost_hostBytes small, same, Int.emod_bmod]
  exact Int.bmod_eq_of_le (by omega) (by omega)

/-- A string of C ends at its first zero. -/
theorem takeWhile_plain {s : CString} (plain : 0 ∉ s) : s.takeWhile (· ≠ 0) = s := by
  rw [List.takeWhile_eq_self_iff]
  intro b member
  simpa using ne_of_mem_of_not_mem member plain

theorem CmdType.isInt_value (cmd : CmdType) : IsInt cmd.value := by cases cmd <;> decide

/-! ## The surroundings

The child is alive while it calls, and takes what is written to it. -/

/-- The values of an address are in the range of their types. -/
structure AddrInfo.Typed (res : AddrInfo) : Prop where
  flags : IsInt res.flags
  family : IsInt res.family
  socktype : IsInt res.socktype
  protocol : IsInt res.protocol
  addr : res.addr.length < 2 ^ 32

/-- What the surroundings answer while a call is served, with every value in the range of
    its type and a device name that fits its buffer. -/
structure Kernel.Serves (k : Kernel) : Prop where
  alive : ∀ n, k.chld n = false
  write : ∀ n, k.write n = true
  openFd : ∀ n, -1 ≤ k.openFd n
  plainName : ∀ n, 0 ∉ (k.tuntap n).2
  fittingName : ∀ n, (k.tuntap n).2.length ≤ ifNamSiz - 1
  addresses : ∀ n, ∀ res ∈ k.getaddrinfo n, res.Typed
  counted : ∀ n, (k.getaddrinfo n).length < 2 ^ 64
  script : ∀ n, IsInt (k.script n)

/-! ## One step of the father -/

section Steps

variable {k : Kernel} {errno : Int} {input rest : List UInt8} {clock : Nat} {memory : Memory}
  {sent : List Item}

theorem ask_returns {α : Type} (answer : Nat → α) :
    Returns (Parent.view k.endian errno) ⟨input, clock, memory, sent⟩ (ask answer) (answer clock)
      ⟨input, clock + 1, memory, sent⟩ := by
  intro p same
  obtain ⟨rfl, rfl, rfl, rfl⟩ := View.mk.inj same
  rfl

/-- An effect that changes the memory. -/
theorem record_returns {f : Parent → Parent} {effect : Effect} (change : Memory → Memory)
    (records : ∀ p, f p = p.record effect (change p.memory)) :
    Returns (Parent.view k.endian errno) ⟨input, clock, memory, sent⟩ (modify f : Root PUnit) ⟨⟩
      ⟨input, clock, change memory, sent ++ effect.items k.endian errno⟩ := by
  refine Ends.modify fun p same => ?_
  obtain ⟨rfl, rfl, rfl, rfl⟩ := View.mk.inj same
  rw [records, ← Parent.sent_record k.endian errno p effect (change p.memory)]
  rfl

/-- The same for an effect that nobody sees in the socket. -/
theorem record_unseen {f : Parent → Parent} {effect : Effect} (change : Memory → Memory)
    (unseen : effect.items k.endian errno = [])
    (records : ∀ p, f p = p.record effect (change p.memory)) :
    Returns (Parent.view k.endian errno) ⟨input, clock, memory, sent⟩ (modify f : Root PUnit) ⟨⟩
      ⟨input, clock, change memory, sent⟩ := by
  have same : sent ++ effect.items k.endian errno = sent := by simp [unseen]
  have recorded : Returns (Parent.view k.endian errno) ⟨input, clock, memory, sent⟩
      (modify f : Root PUnit) ⟨⟩
      ⟨input, clock, change memory, sent ++ effect.items k.endian errno⟩ :=
    record_returns change records
  rwa [same] at recorded

theorem emit_returns (effect : Effect) :
    Returns (Parent.view k.endian errno) ⟨input, clock, memory, sent⟩ (emit effect) ⟨⟩
      ⟨input, clock, memory, sent ++ effect.items k.endian errno⟩ :=
  record_returns id fun _ => rfl

theorem emit_unseen {effect : Effect} (unseen : effect.items k.endian errno = []) :
    Returns (Parent.view k.endian errno) ⟨input, clock, memory, sent⟩ (emit effect) ⟨⟩
      ⟨input, clock, memory, sent⟩ :=
  record_unseen id unseen fun _ => rfl

theorem interrupt_returns (serves : k.Serves) :
    Returns (Parent.view k.endian errno) ⟨input, clock, memory, sent⟩ (interrupt k) ()
      ⟨input, clock + 1, memory, sent⟩ := by
  refine Ends.bind (ask_returns k.chld) ?_
  simp only [serves.alive, Bool.false_eq_true, if_false]
  exact .pure rfl

theorem readState_returns (serves : k.Serves) :
    Returns (Parent.view k.endian errno) ⟨input, clock, memory, sent⟩ (readState k)
      memory.curState ⟨input, clock + 1, memory, sent⟩ := by
  refine Ends.bind (interrupt_returns serves) ?_
  refine Ends.get_bind fun p same => ?_
  rw [← (View.mk.inj same).2.2.1]
  exact .pure rfl

theorem read_returns {bytes : List UInt8} {n : Nat} (whole : bytes.length = n) (short : Exit) :
    Returns (Parent.view k.endian errno) ⟨bytes ++ rest, clock, memory, sent⟩ (read n short) bytes
      ⟨rest, clock, memory, sent⟩ := by
  refine Ends.get_bind fun p same => ?_
  have input : p.input = bytes ++ rest := congrArg View.input same
  have advanced (q : Parent) (same : q.view k.endian errno = ⟨bytes ++ rest, clock, memory, sent⟩) :
      some ((), Parent.view k.endian errno { q with input := q.input.drop n }) =
        some ((), ⟨rest, clock, memory, sent⟩) := by
    obtain ⟨left, rfl, rfl, rfl⟩ := View.mk.inj same
    simp [Parent.view, left, Parent.sent, whole]
  refine Ends.bind (Ends.passes (by simp [input, whole])) ?_
  refine Ends.bind (Ends.modify advanced) ?_
  rw [input, List.take_left' whole]
  exact .pure rfl

theorem mustReadInt_returns {x : Int} (int : IsInt x) :
    Returns (Parent.view k.endian errno) ⟨intBytes k.endian x ++ rest, clock, memory, sent⟩
      (mustReadInt k) x ⟨rest, clock, memory, sent⟩ := by
  refine Ends.bind (read_returns (intBytes_length k.endian x) _) ?_
  rw [toInt_intBytes int]
  exact .pure rfl

theorem mustReadSize_returns {n : Nat} (small : n < 2 ^ 64) :
    Returns (Parent.view k.endian errno) ⟨hostBytes k.endian 8 n ++ rest, clock, memory, sent⟩
      (mustReadSize k) n ⟨rest, clock, memory, sent⟩ := by
  refine Ends.bind (read_returns (hostBytes_length k.endian 8 n) _) ?_
  rw [ofHost_hostBytes (by omega)]
  exact .pure rfl

theorem mustReadString_returns {s : CString} (plain : 0 ∉ s) :
    Returns (Parent.view k.endian errno) ⟨s ++ [0] ++ rest, clock, memory, sent⟩
      (mustReadString (s.length + 1)) s ⟨rest, clock, memory, sent⟩ := by
  refine Ends.bind (read_returns (by simp) _) ?_
  rw [Nat.add_sub_cancel, List.take_left' rfl, takeWhile_plain plain]
  exact .pure rfl

/-- The length in front of a string. -/
theorem mustReadSize_frame {s : CString} (small : s.length + 1 < 2 ^ 64) :
    Returns (Parent.view k.endian errno) ⟨frame k.endian s ++ rest, clock, memory, sent⟩
      (mustReadSize k) (s.length + 1) ⟨s ++ [0] ++ rest, clock, memory, sent⟩ := by
  rw [frame, List.append_assoc]
  exact mustReadSize_returns small

theorem mustWrite_returns (serves : k.Serves) (bytes : List UInt8) :
    Returns (Parent.view k.endian errno) ⟨input, clock, memory, sent⟩ (mustWrite k bytes) ()
      ⟨input, clock + 1, memory, sent ++ bytes.map .byte⟩ := by
  refine Ends.bind (ask_returns k.write) ?_
  refine Ends.bind (Ends.passes (by simp [serves.write])) ?_
  exact emit_returns (.write bytes)

end Steps

/-! ## What a command comes to -/

/-- Where `c` holds a command has read its input up to `rest` and the father has sent
    `sent`, and else it has exited. -/
def Answers (c : Prop) (rest : List UInt8) (sent : List Item) : Option (Unit × View) → Prop
  | some (_, v) => c ∧ v.input = rest ∧ v.sent = sent
  | none => ¬ c

/-- The file that `PRIV_OPEN_CONFIG` opens. -/
def Memory.configfile (memory : Memory) (path : CString) : CString :=
  if memory.curState = .config then path else memory.allowedConfigfile

/-- What `root_open_file` returns. -/
def Kernel.fileFd (k : Kernel) (clock : Nat) (path : CString) : Int :=
  if path.head? = some 124 then -1 else k.openFd clock

/-- What is sent when a device was opened, or was not. -/
def deviceReply (e : Endian) (errno : Int) (device : Int × CString) : List Item :=
  if device.1 < 0 then (hostBytes e 8 0).map .byte
  else (frame e device.2).map .byte ++ (Effect.sendFd device.1).items e errno

/-- The addresses in the socket. -/
def addressesReply (e : Endian) (found : List AddrInfo) : List UInt8 :=
  hostBytes e 8 found.length ++ found.flatMap (AddrInfo.bytes e)

/-- There is memory for every string. -/
def Kernel.Mallocs (k : Kernel) : Nat → List CString → Prop
  | _, [] => True
  | clock, s :: rest => k.malloc clock (s.length + 1) = true ∧ k.Mallocs (clock + 1) rest

/-- There is memory for the strings and for the pointers to them. -/
def Kernel.Callocs (k : Kernel) (clock : Nat) (strings : List CString) : Prop :=
  k.calloc clock (strings.length + 1) = true ∧ k.Mallocs (clock + 1) strings

/-- What `PRIV_RUN_SCRIPT` answers. -/
def Kernel.status (k : Kernel) (clock : Nat) (memory : Memory) : Int :=
  if memory.scriptPath = [] then -1 else k.script clock

section Commands

variable {k : Kernel} {errno : Int} {input rest : List UInt8} {clock : Nat} {memory : Memory}
  {sent : List Item}

theorem rootOpenFile_returns (path : CString) :
    ∃ clock', Returns (Parent.view k.endian errno) ⟨input, clock, memory, sent⟩
      (rootOpenFile k path) (k.fileFd clock path) ⟨input, clock', memory, sent⟩ := by
  unfold rootOpenFile Kernel.fileFd
  by_cases pipe : path.head? = some 124
  · simp only [if_pos pipe]
    exact ⟨clock, .pure rfl⟩
  · simp only [if_neg pipe]
    refine ⟨clock + 1, Ends.bind (emit_unseen rfl) ?_⟩
    exact ask_returns k.openFd

/-- The path is stored in `STATE_CONFIG`, and later the stored one is used. -/
theorem configfile_returns (path : CString) :
    Returns (Parent.view k.endian errno) ⟨input, clock, memory, sent⟩
      (if memory.curState = .config then modify fun p => p.setAllowedConfigfile path
        else pure () : Root PUnit)
      () ⟨input, clock, { memory with allowedConfigfile := memory.configfile path }, sent⟩ := by
  unfold Memory.configfile
  by_cases first : memory.curState = .config
  · simp only [if_pos first]
    exact record_unseen (fun memory => { memory with allowedConfigfile := path }) rfl fun _ => rfl
  · simp only [if_neg first]
    exact .pure rfl

/-- A path that fits its buffer passes the tests of its length. -/
theorem pathLen_fits {path : CString} (short : path.length < maxPathLen) :
    ¬ (path.length + 1 = 0 ∨ maxPathLen < path.length + 1) ∧ path.length + 1 < 2 ^ 64 := by
  unfold maxPathLen at *
  omega

theorem openConfig_ends (serves : k.Serves) {path : CString} (plain : 0 ∉ path)
    (short : path.length < maxPathLen) :
    Ends (Parent.view k.endian errno) ⟨frame k.endian path ++ rest, clock, memory, sent⟩
      (openConfig k)
      (Answers (memory.configfile path ≠ []) rest (sent ++
        (Effect.sendFd (k.fileFd (clock + 1) (memory.configfile path))).items k.endian errno)) := by
  have whole : path.take (path.length + 1 - 1) = path := by simp
  obtain ⟨fits, small⟩ := pathLen_fits short
  refine Ends.bind (mustReadSize_frame small) ?_
  refine Ends.bind (Ends.passes fits) ?_
  refine Ends.bind (mustReadString_returns plain) ?_
  refine Ends.bind (readState_returns serves) ?_
  rw [whole]
  refine Ends.bind (configfile_returns path) ?_
  refine Ends.get_bind fun p same => ?_
  have stored : p.memory.allowedConfigfile = memory.configfile path :=
    congrArg (fun v => v.memory.allowedConfigfile) same
  rw [stored]
  refine Ends.bind_if Ends.exitIf id fun named => ?_
  obtain ⟨clock', opened⟩ := rootOpenFile_returns (memory.configfile path)
  refine Ends.bind opened ?_
  exact Ends.of_returns (emit_returns _) ⟨named, rfl, rfl⟩

theorem requireConfig_returns (serves : k.Serves) (config : memory.curState = .config) :
    Returns (Parent.view k.endian errno) ⟨input, clock, memory, sent⟩ (requireConfig k) ()
      ⟨input, clock + 1, memory, sent⟩ := by
  refine Ends.bind (readState_returns serves) ?_
  exact Ends.passes (not_not_intro config)

/-- The answer to a device that was opened, or was not. -/
theorem deviceReply_returns (serves : k.Serves) (fd : Int) (name : CString) :
    ∃ clock', Returns (Parent.view k.endian errno) ⟨input, clock, memory, sent⟩
      (if fd < 0 then mustWriteSize k 0
        else do
          mustWriteSize k (name.length + 1)
          mustWriteString k name
          emit (.sendFd fd) : Root Unit)
      () ⟨input, clock', memory, sent ++ deviceReply k.endian errno (fd, name)⟩ := by
  unfold deviceReply
  by_cases failed : fd < 0
  · simp only [if_pos failed]
    exact ⟨_, mustWrite_returns serves _⟩
  · simp only [if_neg failed, frame, List.map_append, ← List.append_assoc]
    refine ⟨clock + 1 + 1, Ends.bind (mustWrite_returns serves _) ?_⟩
    refine Ends.bind (mustWrite_returns serves _) ?_
    simp only [List.map_append, ← List.append_assoc]
    exact emit_returns _

theorem openTun_ends (serves : k.Serves) (config : memory.curState = .config) {mode mtu : Int}
    {name : CString} (modeInt : IsInt mode) (mtuInt : IsInt mtu) (plain : 0 ∉ name)
    (short : name.length ≤ ifNamSiz - 1) :
    Ends (Parent.view k.endian errno)
      ⟨intBytes k.endian mode ++ (frame k.endian name ++ intBytes k.endian mtu) ++ rest, clock,
        memory, sent⟩
      (openTun k)
      (Answers ((mode = 0 ∨ mode = 1) ∧ 0 ≤ mtu ∧ mtu ≤ 1500) rest
        (sent ++ deviceReply k.endian errno (k.tuntap (clock + 1)))) := by
  have fits : ¬ ifNamSiz < name.length + 1 := by
    unfold ifNamSiz at *
    omega
  have small : name.length + 1 < 2 ^ 64 := by
    unfold ifNamSiz at *
    omega
  simp only [List.append_assoc]
  refine Ends.bind (requireConfig_returns serves config) ?_
  refine Ends.bind (mustReadInt_returns modeInt) ?_
  refine Ends.bind_if Ends.exitIf (fun wrong served => wrong (by omega)) fun known => ?_
  refine Ends.bind (mustReadSize_frame small) ?_
  refine Ends.bind (Ends.passes fits) ?_
  rw [if_pos (Nat.succ_pos _)]
  refine Ends.bind (mustReadString_returns plain) ?_
  refine Ends.bind (mustReadInt_returns mtuInt) ?_
  refine Ends.bind_if Ends.exitIf (fun wrong served => wrong (by omega)) fun range => ?_
  refine Ends.bind (emit_unseen rfl) ?_
  refine Ends.bind (ask_returns k.tuntap) ?_
  obtain ⟨clock', replied⟩ := deviceReply_returns serves (k.tuntap (clock + 1)).1
    (k.tuntap (clock + 1)).2
  exact Ends.of_returns replied ⟨⟨by omega, by omega⟩, rfl, rfl⟩

/-- The path is stored where nothing is wrong with the script. -/
theorem scriptPath_returns (c : Prop) [Decidable c] (path : CString) :
    ∃ memory', Returns (Parent.view k.endian errno) ⟨input, clock, memory, sent⟩
      (if c then modify fun p => p.setScriptPath path else pure () : Root PUnit) ()
      ⟨input, clock, memory', sent⟩ := by
  by_cases accepted : c
  · simp only [if_pos accepted]
    exact ⟨_, record_unseen (fun memory => { memory with scriptPath := path }) rfl fun _ => rfl⟩
  · simp only [if_neg accepted]
    exact ⟨memory, .pure rfl⟩

theorem initScript_ends (serves : k.Serves) (config : memory.curState = .config) {path : CString}
    (plain : 0 ∉ path) (short : path.length < maxPathLen) :
    Ends (Parent.view k.endian errno) ⟨frame k.endian path ++ rest, clock, memory, sent⟩
      (initScript k)
      (Answers True rest (sent ++
        (frame k.endian ((errormessage path (k.stat (clock + 1))).getD [])).map .byte)) := by
  obtain ⟨fits, small⟩ := pathLen_fits short
  refine Ends.bind (requireConfig_returns serves config) ?_
  refine Ends.bind (mustReadSize_frame small) ?_
  refine Ends.bind (Ends.passes fits) ?_
  refine Ends.bind (mustReadString_returns plain) ?_
  refine Ends.bind (ask_returns k.stat) ?_
  refine Ends.bind (emit_unseen rfl) ?_
  obtain ⟨memory', stored⟩ := scriptPath_returns (errormessage path (k.stat (clock + 1)) = none)
    (path.take (path.length + 1 - 1))
  refine Ends.bind stored ?_
  refine Ends.bind (mustWrite_returns serves _) ?_
  refine Ends.of_returns (mustWrite_returns serves _) ⟨trivial, rfl, ?_⟩
  simp only [frame, List.map_append, List.append_assoc]

/-- A missing name and an empty one are both the null pointer. -/
theorem mustReadName_returns {name : Option CString} (plain : ∀ s ∈ name, 0 ∉ s)
    (short : ∀ s ∈ name, s.length < maxHNamStr) :
    Returns (Parent.view k.endian errno) ⟨optionalFrame k.endian name ++ rest, clock, memory, sent⟩
      (mustReadName k) (name.filter (· ≠ [])) ⟨rest, clock, memory, sent⟩ := by
  cases name with
  | none =>
      refine Ends.bind (mustReadSize_returns (by decide)) ?_
      refine Ends.bind (Ends.passes (by decide)) ?_
      exact .pure rfl
  | some s =>
      have fits : ¬ maxHNamStr < s.length + 1 := by
        have := short s rfl
        omega
      have small : s.length + 1 < 2 ^ 64 := by
        unfold maxHNamStr at fits
        omega
      refine Ends.bind (mustReadSize_frame small) ?_
      refine Ends.bind (Ends.passes fits) ?_
      rw [if_pos (Nat.succ_pos _)]
      refine Ends.bind (mustReadString_returns (plain s rfl)) ?_
      by_cases empty : s = [] <;> exact .pure (by simp [empty, Option.filter])

theorem mustWriteAddrInfo_returns (serves : k.Serves) (res : AddrInfo) :
    ∃ clock', Returns (Parent.view k.endian errno) ⟨input, clock, memory, sent⟩
      (mustWriteAddrInfo k res) ()
      ⟨input, clock', memory, sent ++ (res.bytes k.endian).map .byte⟩ := by
  simp only [AddrInfo.bytes, List.map_append, ← List.append_assoc]
  refine ⟨clock + 6, Ends.bind (mustWrite_returns serves _) ?_⟩
  refine Ends.bind (mustWrite_returns serves _) ?_
  refine Ends.bind (mustWrite_returns serves _) ?_
  refine Ends.bind (mustWrite_returns serves _) ?_
  refine Ends.bind (mustWrite_returns serves _) ?_
  exact mustWrite_returns serves _

theorem mustWriteAddrInfos_returns (serves : k.Serves) (found : List AddrInfo) :
    ∃ clock', Returns (Parent.view k.endian errno) ⟨input, clock, memory, sent⟩
      (mustWriteAddrInfos k found) ()
      ⟨input, clock', memory, sent ++ (found.flatMap (AddrInfo.bytes k.endian)).map .byte⟩ := by
  induction found generalizing clock sent with
  | nil =>
      simp only [List.flatMap_nil, List.map_nil, List.append_nil]
      exact ⟨clock, .pure rfl⟩
  | cons res found ih =>
      obtain ⟨between, written⟩ := mustWriteAddrInfo_returns serves res
      obtain ⟨clock', rest⟩ := ih
      simp only [List.flatMap_cons, List.map_append, ← List.append_assoc]
      exact ⟨clock', Ends.bind written rest⟩

theorem getaddrinfo_ends (serves : k.Serves) {host serv : Option CString} {hints : List UInt8}
    (plainHost : ∀ s ∈ host, 0 ∉ s) (shortHost : ∀ s ∈ host, s.length < maxHNamStr)
    (plainServ : ∀ s ∈ serv, 0 ∉ s) (shortServ : ∀ s ∈ serv, s.length < maxHNamStr)
    (whole : hints.length = sizeofAddrinfo) :
    Ends (Parent.view k.endian errno)
      ⟨optionalFrame k.endian host ++ (optionalFrame k.endian serv ++ hints) ++ rest, clock, memory,
        sent⟩
      (getaddrinfo k)
      (Answers True rest
        (sent ++ (addressesReply k.endian (k.getaddrinfo clock)).map .byte)) := by
  simp only [List.append_assoc]
  refine Ends.bind (mustReadName_returns plainHost shortHost) ?_
  refine Ends.bind (mustReadName_returns plainServ shortServ) ?_
  refine Ends.bind (read_returns whole _) ?_
  refine Ends.bind (emit_unseen rfl) ?_
  refine Ends.bind (ask_returns k.getaddrinfo) ?_
  refine Ends.bind (mustWrite_returns serves _) ?_
  obtain ⟨clock', written⟩ := mustWriteAddrInfos_returns serves (k.getaddrinfo clock)
  refine Ends.of_returns written ⟨trivial, rfl, ?_⟩
  simp only [addressesReply, List.map_append, List.append_assoc]

/-! The arguments and the environment of a script are read into memory that may be
missing. -/

theorem mustReadStrings_ends {strings : List CString} (plain : ∀ s ∈ strings, 0 ∉ s)
    (small : ∀ s ∈ strings, s.length + 1 < 2 ^ 64) :
    ReturnsIf (Parent.view k.endian errno)
      ⟨strings.flatMap (frame k.endian) ++ rest, clock, memory, sent⟩
      (mustReadStrings k strings.length) (k.Mallocs clock strings) strings
      ⟨rest, clock + strings.length, memory, sent⟩ := by
  induction strings generalizing clock with
  | nil => exact .pure ⟨trivial, rfl⟩
  | cons s strings ih =>
      rw [List.flatMap_cons, List.append_assoc]
      refine Ends.bind (mustReadSize_frame (small s (by simp))) ?_
      refine Ends.bind (Ends.passes (by simp)) ?_
      refine Ends.bind (ask_returns k.malloc) ?_
      refine Ends.bind_if Ends.exitIf (fun missing granted => missing (by simp [granted.1]))
        fun granted => ?_
      refine Ends.bind (mustReadString_returns (plain s (by simp))) ?_
      refine Ends.bind_if
        (ih (fun t member => plain t (by simp [member])) fun t member => small t (by simp [member]))
        (fun missing granted => missing granted.2) fun others => ?_
      refine .pure ⟨⟨Bool.eq_true_of_not_eq_false granted, others⟩, ?_⟩
      simp only [List.length_cons, Nat.add_assoc, Nat.add_comm 1]

theorem mustCalloc_ends (n : Int) :
    ReturnsIf (Parent.view k.endian errno) ⟨input, clock, memory, sent⟩ (mustCalloc k n)
      (k.calloc clock n = true) () ⟨input, clock + 1, memory, sent⟩ := by
  refine Ends.bind (ask_returns k.calloc) ?_
  exact Ends.of_returnsIf Ends.exitIf (by simp) fun granted => ⟨by simpa using granted, rfl⟩

theorem mustReadCounted_ends {strings : List CString} (plain : ∀ s ∈ strings, 0 ∉ s)
    (small : ∀ s ∈ strings, s.length + 1 < 2 ^ 64) (nonempty : strings ≠ [])
    (counted : strings.length < 2 ^ 31) :
    ReturnsIf (Parent.view k.endian errno)
      ⟨countedFrames k.endian strings ++ rest, clock, memory, sent⟩
      (mustReadCounted k) (k.Callocs clock strings) strings
      ⟨rest, clock + 1 + strings.length, memory, sent⟩ := by
  have int : IsInt strings.length := ⟨by omega, by omega⟩
  have positive : 0 < strings.length := List.length_pos_iff.mpr nonempty
  rw [countedFrames, List.append_assoc]
  refine Ends.bind (mustReadInt_returns int) ?_
  refine Ends.bind (Ends.passes (by omega)) ?_
  refine Ends.bind_if (mustCalloc_ends _) (fun missing granted => missing granted.1)
    fun pointers => ?_
  exact Ends.of_returnsIf (mustReadStrings_ends plain small)
    (fun missing granted => missing granted.2) fun granted => ⟨⟨pointers, granted⟩, rfl⟩

theorem scriptStatus_returns (argv env : List CString) :
    ∃ clock', Returns (Parent.view k.endian errno) ⟨input, clock, memory, sent⟩
      (if memory.scriptPath = [] then pure (-1)
        else rootLaunchScript k memory.scriptPath argv env : Root Int)
      (k.status clock memory) ⟨input, clock', memory, sent⟩ := by
  unfold Kernel.status
  by_cases missing : memory.scriptPath = []
  · simp only [if_pos missing]
    exact ⟨clock, .pure rfl⟩
  · simp only [if_neg missing]
    refine ⟨clock + 1, Ends.bind (emit_unseen rfl) ?_⟩
    exact ask_returns k.script

theorem runScript_ends (serves : k.Serves) {argv env : List CString}
    (plainArgv : ∀ s ∈ argv, 0 ∉ s) (smallArgv : ∀ s ∈ argv, s.length + 1 < 2 ^ 64)
    (someArgv : argv ≠ []) (countedArgv : argv.length < 2 ^ 31)
    (plainEnv : ∀ s ∈ env, 0 ∉ s) (smallEnv : ∀ s ∈ env, s.length + 1 < 2 ^ 64)
    (someEnv : env ≠ []) (countedEnv : env.length < 2 ^ 31) :
    Ends (Parent.view k.endian errno)
      ⟨countedFrames k.endian argv ++ countedFrames k.endian env ++ rest, clock, memory, sent⟩
      (runScript k)
      (Answers (k.Callocs clock argv ∧ k.Callocs (clock + 1 + argv.length) env) rest
        (sent ++ (intBytes k.endian
          (k.status (clock + 1 + argv.length + 1 + env.length) memory)).map .byte)) := by
  rw [List.append_assoc]
  refine Ends.bind_if (mustReadCounted_ends plainArgv smallArgv someArgv countedArgv)
    (fun missing granted => missing granted.1) fun argvGranted => ?_
  refine Ends.bind_if (mustReadCounted_ends plainEnv smallEnv someEnv countedEnv)
    (fun missing granted => missing granted.2) fun envGranted => ?_
  refine Ends.get_bind fun p same => ?_
  have stored : p.memory.scriptPath = memory.scriptPath :=
    congrArg (fun v => v.memory.scriptPath) same
  rw [stored]
  obtain ⟨clock', launched⟩ := scriptStatus_returns argv env
  refine Ends.bind launched ?_
  exact Ends.of_returns (mustWrite_returns serves _) ⟨⟨argvGranted, envGranted⟩, rfl, rfl⟩

theorem reloadResolver_ends :
    Ends (Parent.view k.endian errno) ⟨input, clock, memory, sent⟩ (emit .resInit)
      (Answers True input (sent ++ [])) :=
  Ends.of_returns (emit_returns .resInit) ⟨trivial, rfl, rfl⟩

theorem setRunningState_ends (serves : k.Serves)
    (before : memory.curState.value < PrivState.running.value) :
    Ends (Parent.view k.endian errno) ⟨input, clock, memory, sent⟩ (increaseState k .running)
      (Answers True input (sent ++ [])) := by
  refine Ends.bind (readState_returns serves) ?_
  refine Ends.bind (Ends.passes (by omega)) ?_
  refine Ends.bind (emit_unseen rfl) ?_
  refine Ends.bind (interrupt_returns serves) ?_
  exact Ends.of_returns
    (record_returns (fun memory => { memory with curState := .running }) fun _ => rfl)
    ⟨trivial, rfl, rfl⟩

/-- One round of the loop. -/
theorem serve_ends (serves : k.Serves) (cmd : CmdType)
    (working : memory.curState.value < PrivState.quit.value) {Q : Option (Unit × View) → Prop}
    (served : Ends (Parent.view k.endian errno) ⟨input, clock + 1, memory, sent⟩
      (dispatch k cmd.value) Q) :
    Ends (Parent.view k.endian errno) ⟨intBytes k.endian cmd.value ++ input, clock, memory, sent⟩
      (serve k 1) Q := by
  have once : serve k 1 = (do
      let curState ← readState k
      exitIf (PrivState.quit.value ≤ curState.value) (.exit 1)
      command k) := by simp [serve]
  rw [once]
  refine Ends.bind (readState_returns serves) ?_
  refine Ends.bind (Ends.passes (by omega)) ?_
  refine Ends.bind (read_returns (intBytes_length k.endian cmd.value) _) ?_
  rw [toInt_intBytes cmd.isInt_value]
  exact served

end Commands

end Mlvpn.Privsep
