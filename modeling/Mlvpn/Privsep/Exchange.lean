import Mlvpn.Privsep.Serving

/-! # Both ends of the socket

A call writes its request before it reads anything, so an exchange is three runs: the child
up to where it waits, the father on what the child has written, and the child again on what
the father has sent.  Each side should read what the other has written, to its last byte, and
the caller should get what the father got from its surroundings.

It does in most cases.  A device name of the greatest length is sent by the father and
refused by the child, and where no device was opened the child returns zero.
-/

namespace Mlvpn.Privsep

open Library Library.Program Library.Bytes

/-! ## The exchange -/

/-- What a call writes before it waits for an answer. -/
def Call.request (e : Endian) (call : Call) : List UInt8 :=
  (outcome (call.stub e) ⟨0, [], []⟩).2.written

/-- The father serves a call, with what comes after it already in the socket. -/
def Parent.serving (k : Kernel) (p : Parent) (call : Call) : Except Exit Unit × Parent :=
  outcome (serve k 1) { p with input := call.request k.endian ++ p.input }

/-- What the father sends while it serves the call. -/
def Parent.reply (k : Kernel) (errno : Int) (p : Parent) (call : Call) : List Item :=
  ((p.serving k call).2.sent k.endian errno).drop (p.sent k.endian errno).length

/-- What the father gets from its surroundings for a call. -/
def Call.result (k : Kernel) (clock : Nat) (memory : Memory) : Call → Returned
  | .openConfig configPath => .value (k.fileFd (clock + 2) (memory.configfile configPath))
  | .openTun _ devname _ =>
      let device := k.tuntap (clock + 2)
      .device device.1 (if device.1 < 0 then devname else some device.2)
  | .initScript path =>
      .value (if errormessage path (k.stat (clock + 2)) = none then 0 else -1)
  | .getaddrinfo _ _ _ =>
      let found := k.getaddrinfo (clock + 1)
      .addresses found.length (if found = [] then none else some found)
  | .runScript argv env => .value (k.status (clock + 2 + argv.length + 1 + env.length) memory)
  | .reloadResolver => .nothing
  | .setRunningState => .nothing

/-- Each side reads what the other has written and not more, neither exits, and the call
    returns the father's result. -/
def Agrees (k : Kernel) (errno : Int) (p : Parent) (c : Child) (call : Call) : Prop :=
  (p.serving k call).1 = .ok () ∧ (p.serving k call).2.input = p.input ∧
  outcome (call.stub k.endian) { c with incoming := p.reply k errno call ++ c.incoming } =
    (.ok (call.result k p.clock p.memory), { c with written := c.written ++ call.request k.endian })

instance (k : Kernel) (errno : Int) (p : Parent) (c : Child) (call : Call) :
    Decidable (Agrees k errno p c call) := inferInstanceAs (Decidable (_ ∧ _ ∧ _))

/-- Strings end at their zero, numbers are in range, and the count of bytes of a string is a
    `size_t`. -/
def Call.Typed : Call → Prop
  | .openConfig configPath => 0 ∉ configPath
  | .openTun tuntapmode devname mtu => IsInt tuntapmode ∧ IsInt mtu ∧ ∀ name ∈ devname, 0 ∉ name
  | .initScript path => 0 ∉ path
  | .getaddrinfo host serv hints =>
      (∀ s ∈ host, 0 ∉ s) ∧ (∀ s ∈ serv, 0 ∉ s) ∧ hints.length = sizeofAddrinfo
  | .runScript argv env =>
      (∀ s ∈ argv, 0 ∉ s ∧ s.length + 1 < 2 ^ 64) ∧ (∀ s ∈ env, 0 ∉ s ∧ s.length + 1 < 2 ^ 64) ∧
      argv.length < 2 ^ 31 ∧ env.length < 2 ^ 31
  | .reloadResolver => True
  | .setRunningState => True

/-- Paths are shorter than `MAXPATHLEN`, a device name fits its buffer, and a script has an
    argument and an environment. -/
def Call.Bounded : Call → Prop
  | .openConfig configPath => configPath.length < maxPathLen
  | .openTun _ devname _ => devname ≠ none ∧ ∀ name ∈ devname, name.length ≤ ifNamSiz - 1
  | .initScript path => path.length < maxPathLen
  | .runScript argv env => argv ≠ [] ∧ env ≠ []
  | _ => True

/-- The state allows the call. -/
def Call.Allowed (state : PrivState) : Call → Prop
  | .openTun _ _ _ => state = .config
  | .initScript _ => state = .config
  | .setRunningState => state.value < PrivState.running.value
  | _ => state.value < PrivState.quit.value

/-- What else it takes for a call to be served, and for its result to arrive. -/
def Call.Served (k : Kernel) (clock : Nat) (memory : Memory) : Call → Prop
  | .openConfig configPath => memory.configfile configPath ≠ []
  | .openTun tuntapmode _ mtu =>
      let device := k.tuntap (clock + 2)
      ((tuntapmode = 0 ∨ tuntapmode = 1) ∧ 0 ≤ mtu ∧ mtu ≤ 1500) ∧
        0 ≤ device.1 ∧ device.2.length + 1 < ifNamSiz
  | .getaddrinfo _ _ _ => (k.getaddrinfo (clock + 1)).length < 2 ^ 31
  | .runScript argv env =>
      k.Callocs (clock + 1) argv ∧ k.Callocs (clock + 2 + argv.length) env
  | _ => True

/-! ## What a call writes -/

def Call.cmd : Call → CmdType
  | .openConfig _ => .openConfig
  | .openTun _ _ _ => .openTun
  | .initScript _ => .initScript
  | .getaddrinfo _ _ _ => .getaddrinfo
  | .runScript _ _ => .runScript
  | .reloadResolver => .reloadResolver
  | .setRunningState => .setRunningState

/-- The arguments of a call in the socket. -/
def Call.arguments (e : Endian) : Call → List UInt8
  | .openConfig configPath => frame e configPath
  | .openTun tuntapmode devname mtu =>
      intBytes e tuntapmode ++ (optionalFrame e devname ++ intBytes e mtu)
  | .initScript path => frame e path
  | .getaddrinfo host serv hints =>
      optionalFrame e (host.map Stub.hnamCopy) ++
        (optionalFrame e (serv.map Stub.hnamCopy) ++ hints)
  | .runScript argv env => countedFrames e argv ++ countedFrames e env
  | .reloadResolver => []
  | .setRunningState => []

def Call.bytes (e : Endian) (call : Call) : List UInt8 :=
  intBytes e call.cmd.value ++ call.arguments e

/-- What a call does once its request is written. -/
def Call.answer (e : Endian) : Call → Stub Returned
  | .openConfig _ => do
      let fd ← Stub.receiveFd e
      return .value fd
  | .openTun _ devname _ => do
      let (fd, name) ← Stub.receiveTun e devname
      return .device fd name
  | .initScript _ => do
      let code ← Stub.receiveMessage e
      return .value code
  | .getaddrinfo _ _ _ => do
      let (n, found) ← Stub.receiveAddresses e
      return .addresses n found
  | .runScript _ _ => do
      let retval ← Stub.mustReadInt e
      return .value retval
  | .reloadResolver => pure .nothing
  | .setRunningState => pure .nothing

section Writing

variable {e : Endian} {privFd : Int} {written : List UInt8} {incoming : List Item}

namespace Stub

theorem unprivileged_returns (priv : 0 ≤ privFd) (name : String) :
    Returns id ⟨privFd, written, incoming⟩ (unprivileged name) ()
      ⟨privFd, written, incoming⟩ := by
  refine Ends.get_bind ?_
  rintro _ rfl
  exact Ends.passes (Int.not_lt.mpr priv)

theorem mustWrite_returns (bytes : List UInt8) :
    Returns id ⟨privFd, written, incoming⟩ (mustWrite bytes) ()
      ⟨privFd, written ++ bytes, incoming⟩ := by
  refine Ends.modify ?_
  rintro _ rfl
  rfl

theorem mustWriteInt_returns (x : Int) :
    Returns id ⟨privFd, written, incoming⟩ (mustWriteInt e x) ()
      ⟨privFd, written ++ intBytes e x, incoming⟩ := mustWrite_returns _

theorem mustWriteString_returns (s : CString) :
    Returns id ⟨privFd, written, incoming⟩ (mustWriteString e s) ()
      ⟨privFd, written ++ frame e s, incoming⟩ := by
  rw [frame, ← List.append_assoc]
  exact Ends.bind (mustWrite_returns _) (mustWrite_returns _)

theorem mustWriteOptional_returns (s : Option CString) :
    Returns id ⟨privFd, written, incoming⟩ (mustWriteOptional e s) ()
      ⟨privFd, written ++ optionalFrame e s, incoming⟩ := by
  cases s with
  | none => exact mustWrite_returns _
  | some s => exact mustWriteString_returns s

theorem mustWriteStrings_returns (strings : List CString) :
    Returns id ⟨privFd, written, incoming⟩ (mustWriteStrings e strings) ()
      ⟨privFd, written ++ strings.flatMap (frame e), incoming⟩ := by
  induction strings generalizing written with
  | nil =>
      rw [List.flatMap_nil, List.append_nil]
      exact .pure rfl
  | cons s strings ih =>
      rw [List.flatMap_cons, ← List.append_assoc]
      exact Ends.bind (mustWriteString_returns s) ih

theorem mustWriteCounted_returns (strings : List CString) :
    Returns id ⟨privFd, written, incoming⟩ (mustWriteCounted e strings) ()
      ⟨privFd, written ++ countedFrames e strings, incoming⟩ := by
  rw [countedFrames, ← List.append_assoc]
  exact Ends.bind (mustWrite_returns _) (mustWriteStrings_returns strings)

/-- How every call begins. -/
theorem begins {β : Type} (priv : 0 ≤ privFd) (name : String) (cmd : CmdType) (next : Stub β) :
    outcome (do
        unprivileged name
        mustWriteInt e cmd.value
        next) ⟨privFd, written, incoming⟩ =
      outcome next ⟨privFd, written ++ intBytes e cmd.value, incoming⟩ := by
  rw [(unprivileged_returns priv name).outcome_bind, (mustWriteInt_returns _).outcome_bind]

/-- A call writes its request, and goes on to its answer. -/
theorem writes (priv : 0 ≤ privFd) (call : Call) :
    outcome (call.stub e) ⟨privFd, written, incoming⟩ =
      outcome (call.answer e) ⟨privFd, written ++ call.bytes e, incoming⟩ := by
  rw [Call.bytes, ← List.append_assoc]
  cases call with
  | openConfig configPath =>
      simp only [Call.stub, privOpenConfig, bind_assoc]
      rw [begins priv, (mustWriteString_returns _).outcome_bind]
      rfl
  | openTun tuntapmode devname mtu =>
      simp only [Call.stub, privOpenTun, bind_assoc, Call.arguments, ← List.append_assoc]
      rw [begins priv, (mustWriteInt_returns _).outcome_bind,
        (mustWriteOptional_returns _).outcome_bind, (mustWriteInt_returns _).outcome_bind]
      rfl
  | initScript path =>
      simp only [Call.stub, privInitScript, bind_assoc]
      rw [begins priv, (mustWriteString_returns _).outcome_bind]
      rfl
  | getaddrinfo host serv hints =>
      simp only [Call.stub, privGetaddrinfo, bind_assoc, Call.arguments, ← List.append_assoc]
      rw [begins priv, (mustWriteOptional_returns _).outcome_bind,
        (mustWriteOptional_returns _).outcome_bind, (mustWrite_returns _).outcome_bind]
      rfl
  | runScript argv env =>
      simp only [Call.stub, privRunScript, bind_assoc, Call.arguments, ← List.append_assoc]
      rw [begins priv, (mustWriteCounted_returns _).outcome_bind,
        (mustWriteCounted_returns _).outcome_bind]
      rfl
  | reloadResolver =>
      simp only [Call.stub, privReloadResolver, bind_assoc, Call.arguments, List.append_nil]
      rw [begins priv]
      rfl
  | setRunningState =>
      simp only [Call.stub, privSetRunningState, bind_assoc, Call.arguments, List.append_nil]
      rw [begins priv]
      rfl

/-- With nothing to read, a call does not get beyond its request. -/
theorem waits (call : Call) :
    (outcome (call.answer e) ⟨privFd, written, []⟩).2.written = written := by
  cases call <;> rfl

end Stub

theorem Call.request_eq (call : Call) : call.request e = call.bytes e := by
  rw [Call.request, Stub.writes (Int.le_refl 0), Stub.waits, List.nil_append]

end Writing

/-! ## What a call reads -/

section Reading

variable {e : Endian} {errno privFd : Int} {written : List UInt8} {incoming later : List Item}

theorem takeBytes_bytes (bytes : List UInt8) (later : List Item) :
    takeBytes (bytes.map .byte ++ later) bytes.length = some (bytes, later) := by
  induction bytes with
  | nil => simp [takeBytes]
  | cons b bytes ih => simp [takeBytes, ih]

namespace Stub

theorem mustTake_returns {bytes : List UInt8} {n : Nat} (whole : bytes.length = n)
    (short : Failure) :
    Returns id ⟨privFd, written, incoming⟩ (mustTake (bytes.map .byte ++ later) n short) bytes
      ⟨privFd, written, later⟩ := by
  subst whole
  simp only [mustTake, takeBytes_bytes]
  rintro _ rfl
  rfl

theorem mustRead_returns {bytes : List UInt8} {n : Nat} (whole : bytes.length = n) :
    Returns id ⟨privFd, written, bytes.map .byte ++ later⟩ (mustRead n) bytes
      ⟨privFd, written, later⟩ := by
  refine Ends.get_bind ?_
  rintro _ rfl
  exact mustTake_returns whole _

theorem mustReadInt_returns {x : Int} (int : IsInt x) :
    Returns id ⟨privFd, written, (intBytes e x).map .byte ++ later⟩ (mustReadInt e) x
      ⟨privFd, written, later⟩ := by
  refine Ends.bind (mustRead_returns (intBytes_length e x)) ?_
  rw [toInt_intBytes int]
  exact .pure rfl

theorem mustReadSize_returns {n : Nat} (small : n < 2 ^ 64) :
    Returns id ⟨privFd, written, (hostBytes e 8 n).map .byte ++ later⟩ (mustReadSize e) n
      ⟨privFd, written, later⟩ := by
  refine Ends.bind (mustRead_returns (hostBytes_length e 8 n)) ?_
  rw [ofHost_hostBytes (by omega)]
  exact .pure rfl

/-- No descriptor comes with plain bytes. -/
theorem control_bytes {bytes : List UInt8} (nonempty : bytes ≠ []) :
    control (bytes.map .byte ++ later) = (none, bytes.map .byte ++ later) := by
  cases bytes with
  | nil => exact absurd rfl nonempty
  | cons b bytes => rfl

/-- A descriptor arrives, and otherwise -1 whatever `errno` was. -/
theorem receiveFd_returns (fd : Int) :
    Returns id ⟨privFd, written, (Effect.sendFd fd).items e errno ++ later⟩ (receiveFd e)
      (if 0 ≤ fd then fd else -1) ⟨privFd, written, later⟩ := by
  refine Ends.get_bind ?_
  rintro _ rfl
  by_cases opened : 0 ≤ fd
  · simp only [Effect.items, if_pos opened, List.cons_append, control]
    refine Ends.bind (mustTake_returns (intBytes_length e 0) _) ?_
    rw [toInt_intBytes (by decide), if_pos rfl]
    exact .pure rfl
  · have nonempty : intBytes e errno ≠ [] := List.ne_nil_of_length_eq_add_one (intBytes_length e errno)
    simp only [Effect.items, if_neg opened, control_bytes nonempty]
    refine Ends.bind (mustTake_returns (intBytes_length e errno) _) ?_
    simp only [Option.getD_none, ite_self]
    exact .pure rfl

/-- The answer to a device that was opened, or was not: zero is returned where it was not,
    and a name of the greatest length is refused. -/
theorem receiveTun_ends {fd : Int} {name devname : CString} (plain : 0 ∉ name)
    (small : name.length + 1 < 2 ^ 64) :
    Ends id ⟨privFd, written, deviceReply e errno (fd, name) ++ later⟩
      (receiveTun e (some devname)) fun r =>
        r = some ((fd, if fd < 0 then some devname else some name), ⟨privFd, written, later⟩) ↔
          0 ≤ fd ∧ name.length + 1 < ifNamSiz := by
  unfold deviceReply
  by_cases failed : fd < 0
  · simp only [if_pos failed]
    refine Ends.bind (mustReadSize_returns (by decide)) ?_
    refine Ends.pure ?_
    simp only [Option.some.injEq, Prod.mk.injEq]
    constructor <;> omega
  · simp only [if_neg failed, frame, List.map_append, List.append_assoc]
    refine Ends.bind (mustReadSize_returns small) ?_
    by_cases short : name.length + 1 < ifNamSiz
    · rw [if_pos ⟨Nat.succ_pos _, short, by simp⟩, ← List.append_assoc, ← List.map_append]
      refine Ends.bind (mustRead_returns (by simp)) ?_
      refine Ends.bind (receiveFd_returns fd) ?_
      rw [Nat.add_sub_cancel, List.take_left' rfl, takeWhile_plain plain]
      rw [if_pos (Int.not_lt.mp failed)]
      exact Ends.pure (iff_of_true rfl ⟨Int.not_lt.mp failed, short⟩)
    · rw [if_neg fun fits => short fits.2.1, if_neg (Nat.not_succ_le_zero _)]
      exact Ends.throw (by simp [short])

theorem mustReadAddrInfo_returns {res : AddrInfo} (typed : res.Typed) :
    Returns id ⟨privFd, written, (res.bytes e).map .byte ++ later⟩ (mustReadAddrInfo e) res
      ⟨privFd, written, later⟩ := by
  simp only [AddrInfo.bytes, List.map_append, List.append_assoc]
  refine Ends.bind (mustReadInt_returns typed.flags) ?_
  refine Ends.bind (mustReadInt_returns typed.family) ?_
  refine Ends.bind (mustReadInt_returns typed.socktype) ?_
  refine Ends.bind (mustReadInt_returns typed.protocol) ?_
  refine Ends.bind (mustRead_returns (hostBytes_length e 4 res.addr.length)) ?_
  have small : res.addr.length < 256 ^ 4 := typed.addr
  rw [ofHost_hostBytes small]
  refine Ends.bind (mustRead_returns rfl) ?_
  exact .pure rfl

theorem mustReadAddrInfos_returns {found : List AddrInfo} (typed : ∀ res ∈ found, res.Typed) :
    Returns id ⟨privFd, written, (found.flatMap (AddrInfo.bytes e)).map .byte ++ later⟩
      (mustReadAddrInfos e found.length) found ⟨privFd, written, later⟩ := by
  induction found with
  | nil => exact .pure rfl
  | cons res found ih =>
      rw [List.flatMap_cons, List.map_append, List.append_assoc]
      refine Ends.bind (mustReadAddrInfo_returns (typed res (by simp))) ?_
      refine Ends.bind (ih fun other member => typed other (by simp [member])) ?_
      exact .pure rfl

/-- The number of addresses fits an `int`. -/
theorem bmod_count_eq (n : Nat) : (n : Int).bmod (2 ^ 32) = n ↔ n < 2 ^ 31 := by
  constructor
  · intro same
    have bound : (n : Int).bmod (2 ^ 32) < ((2 ^ 32 : Nat) + 1) / 2 := Int.bmod_lt (by decide)
    omega
  · intro small
    exact Int.bmod_eq_of_le (by omega) (by omega)

theorem receiveAddresses_ends {found : List AddrInfo} (typed : ∀ res ∈ found, res.Typed)
    (counted : found.length < 2 ^ 64) :
    Ends id ⟨privFd, written, (addressesReply e found).map .byte ++ later⟩ (receiveAddresses e)
      fun r =>
        r = some ((↑found.length, if found = [] then none else some found),
          ⟨privFd, written, later⟩) ↔ found.length < 2 ^ 31 := by
  rw [addressesReply, List.map_append, List.append_assoc]
  refine Ends.bind (mustReadSize_returns counted) ?_
  by_cases empty : found = []
  · subst empty
    exact Ends.pure (iff_of_true rfl (by decide))
  · rw [if_neg (by simpa using empty), if_neg empty]
    refine Ends.bind (mustReadAddrInfos_returns typed) ?_
    refine Ends.pure ?_
    simp only [Option.some.injEq, Prod.mk.injEq, and_true]
    exact bmod_count_eq found.length

/-- A message arrives as it was sent, and only an empty one is no error. -/
theorem receiveMessage_returns {message : CString} (short : message.length < errMsgSiz) :
    Returns id ⟨privFd, written, (frame e message).map .byte ++ later⟩ (receiveMessage e)
      (if message.takeWhile (· ≠ 0) = [] then 0 else -1) ⟨privFd, written, later⟩ := by
  have small : message.length + 1 < 2 ^ 64 := by
    unfold errMsgSiz at short
    omega
  rw [frame, List.map_append, List.append_assoc]
  refine Ends.bind (mustReadSize_returns small) ?_
  refine Ends.bind (Ends.passes (Nat.not_succ_le_zero _)) ?_
  simp only [if_neg (Nat.not_lt.mpr short)]
  refine Ends.bind (mustRead_returns (by simp)) ?_
  rw [Nat.add_sub_cancel, List.take_left' rfl]
  exact .pure rfl

end Stub

end Reading

/-! ## What is wrong with a script, and names that are cut -/

/-- A text that does not begin with a zero is not empty when it is cut to a message. -/
theorem takeWhile_message {s : CString} (shown : ∀ b ∈ s.head?, b ≠ 0) (nonempty : s ≠ []) :
    (s.take (errMsgSiz - 1)).takeWhile (· ≠ 0) ≠ [] := by
  cases s with
  | nil => exact absurd rfl nonempty
  | cons b s =>
      have first : b ≠ 0 := shown b rfl
      simp [errMsgSiz, first]

theorem errormessage_short {path message : CString} {answer : Except CString Stat}
    (wrong : errormessage path answer = some message) : message.length < errMsgSiz := by
  have cut (s : CString) : (s.take (errMsgSiz - 1)).length < errMsgSiz := by simp [errMsgSiz]
  unfold errormessage at wrong
  split at wrong
  · cases wrong
    exact cut _
  · split_ifs at wrong <;> cases wrong <;> exact cut _

theorem errormessage_shown {path message : CString} {answer : Except CString Stat}
    (plain : 0 ∉ path) (wrong : errormessage path answer = some message) :
    message.takeWhile (· ≠ 0) ≠ [] := by
  have about (said : String) (blank : (text said).head? = some 32) :
      ((path ++ text said).take (errMsgSiz - 1)).takeWhile (· ≠ 0) ≠ [] := by
    refine takeWhile_message ?_ ?_
    · cases path with
      | nil => simp [blank]
      | cons b path =>
          rintro _ ⟨⟩
          exact fun zero => plain (by simp [zero])
    · intro empty
      simp [(List.append_eq_nil_iff.mp empty).2] at blank
  unfold errormessage at wrong
  split at wrong
  · cases wrong
    have unable : (text "Unable to open file ").head? = some 85 := by decide +kernel
    refine takeWhile_message ?_ ?_
    · simp [unable]
    · intro empty
      simp only [List.append_eq_nil_iff] at empty
      simp [empty.1.1.1] at unable
  · split_ifs at wrong <;> cases wrong
    · exact about _ (by decide +kernel)
    · exact about _ (by decide +kernel)

/-- The message that is sent is read as an error if it is one. -/
theorem message_error {path : CString} {answer : Except CString Stat} (plain : 0 ∉ path) :
    ((errormessage path answer).getD []).takeWhile (· ≠ 0) = [] ↔
      errormessage path answer = none := by
  cases wrong : errormessage path answer with
  | none => simp
  | some message => simpa using errormessage_shown plain wrong

theorem message_short {path : CString} {answer : Except CString Stat} :
    ((errormessage path answer).getD []).length < errMsgSiz := by
  cases wrong : errormessage path answer with
  | none => decide
  | some message => exact errormessage_short wrong

theorem hnamCopy_plain {name : Option CString} (plain : ∀ s ∈ name, 0 ∉ s) :
    ∀ s ∈ name.map Stub.hnamCopy, 0 ∉ s := by
  rintro _ member zero
  obtain ⟨s, same, rfl⟩ := Option.mem_map.mp member
  exact plain s same (List.mem_of_mem_take zero)

theorem hnamCopy_short {name : Option CString} :
    ∀ s ∈ name.map Stub.hnamCopy, s.length < maxHNamStr := by
  rintro _ member
  obtain ⟨s, same, rfl⟩ := Option.mem_map.mp member
  simp [Stub.hnamCopy, maxHNamStr]

/-! ## The exchange of each call -/

section Exchanges

variable {k : Kernel} {errno : Int} {p : Parent} {c : Child} {call : Call}

/-- The father's part and the child's part of an exchange. -/
theorem agrees_iff_parts {accepted arrives : Prop} {reply : List Item} (serves : k.Serves)
    (priv : 0 ≤ c.privFd) (working : p.memory.curState.value < PrivState.quit.value)
    (father : Ends (Parent.view k.endian errno)
      ⟨call.arguments k.endian ++ p.input, p.clock + 1, p.memory, p.sent k.endian errno⟩
      (dispatch k call.cmd.value)
      (Answers accepted p.input (p.sent k.endian errno ++ reply)))
    (child : Ends id ⟨c.privFd, c.written ++ call.bytes k.endian, reply ++ c.incoming⟩
      (call.answer k.endian) fun r =>
        r = some (call.result k p.clock p.memory,
          ⟨c.privFd, c.written ++ call.bytes k.endian, c.incoming⟩) ↔ arrives) :
    Agrees k errno p c call ↔ accepted ∧ arrives := by
  have whole := serve_ends serves call.cmd working father
  rw [← List.append_assoc, ← Call.bytes] at whole
  have served := whole { p with input := call.bytes k.endian ++ p.input } rfl
  unfold Agrees Parent.reply Parent.serving
  rw [Call.request_eq, Stub.writes priv]
  revert served
  rcases outcome (serve k 1) { p with input := call.bytes k.endian ++ p.input } with ⟨e | _, q⟩
  · intro exited
    exact iff_of_false (fun agrees => nomatch agrees.1) fun both => exited both.1
  · rintro ⟨done, consumed, sent⟩
    have replied : (q.sent k.endian errno).drop (p.sent k.endian errno).length = reply := by
      have same : q.sent k.endian errno = p.sent k.endian errno ++ reply := sent
      rw [same, List.drop_left]
    have arrived := seen_id_eq_some.symm.trans (child _ rfl)
    rw [replied]
    exact ⟨fun agrees => ⟨done, arrived.mp agrees.2.2⟩,
      fun both => ⟨rfl, consumed, arrived.mpr both.2⟩⟩

theorem working_of_config (config : p.memory.curState = .config) :
    p.memory.curState.value < PrivState.quit.value := by
  rw [config]
  decide

/-- A file that was not opened has the descriptor -1. -/
theorem received_fileFd (serves : k.Serves) (clock : Nat) (path : CString) :
    (if 0 ≤ k.fileFd clock path then k.fileFd clock path else -1) = k.fileFd clock path := by
  have bound := serves.openFd clock
  unfold Kernel.fileFd
  split_ifs <;> omega

theorem isInt_status (serves : k.Serves) (clock : Nat) (memory : Memory) :
    IsInt (k.status clock memory) := by
  unfold Kernel.status
  split
  · decide
  · exact serves.script clock

theorem openConfig_agrees_iff (serves : k.Serves) (priv : 0 ≤ c.privFd) {configPath : CString}
    (plain : 0 ∉ configPath) (short : configPath.length < maxPathLen)
    (working : p.memory.curState.value < PrivState.quit.value) :
    Agrees k errno p c (.openConfig configPath) ↔ p.memory.configfile configPath ≠ [] := by
  refine (agrees_iff_parts serves priv working (openConfig_ends serves plain short) ?_).trans
    (iff_of_eq (and_true _))
  refine Ends.bind (Stub.receiveFd_returns _) (Ends.pure (iff_of_true ?_ trivial))
  rw [received_fileFd serves]
  rfl

theorem openTun_agrees_iff (serves : k.Serves) (priv : 0 ≤ c.privFd) {tuntapmode mtu : Int}
    {devname : CString} (modeInt : IsInt tuntapmode) (mtuInt : IsInt mtu) (plain : 0 ∉ devname)
    (short : devname.length ≤ ifNamSiz - 1) (config : p.memory.curState = .config) :
    Agrees k errno p c (.openTun tuntapmode (some devname) mtu) ↔
      ((tuntapmode = 0 ∨ tuntapmode = 1) ∧ 0 ≤ mtu ∧ mtu ≤ 1500) ∧
        0 ≤ (k.tuntap (p.clock + 2)).1 ∧ (k.tuntap (p.clock + 2)).2.length + 1 < ifNamSiz := by
  have small : (k.tuntap (p.clock + 2)).2.length + 1 < 2 ^ 64 := by
    have fitting := serves.fittingName (p.clock + 2)
    unfold ifNamSiz at fitting
    omega
  refine agrees_iff_parts serves priv (working_of_config config)
    (openTun_ends serves config modeInt mtuInt plain short) ?_
  exact Ends.bind_pure (g := fun result => Returned.device result.1 result.2)
    (fun _ _ same => by simpa [Prod.ext_iff] using same)
    (Stub.receiveTun_ends (serves.plainName _) small)

theorem initScript_agrees (serves : k.Serves) (priv : 0 ≤ c.privFd) {path : CString}
    (plain : 0 ∉ path) (short : path.length < maxPathLen) (config : p.memory.curState = .config) :
    Agrees k errno p c (.initScript path) := by
  refine (agrees_iff_parts serves priv (working_of_config config)
    (initScript_ends serves config plain short) ?_).mpr ⟨trivial, trivial⟩
  refine Ends.bind (Stub.receiveMessage_returns message_short)
    (Ends.pure (iff_of_true ?_ trivial))
  simp only [message_error plain]
  rfl

theorem getaddrinfo_agrees_iff (serves : k.Serves) (priv : 0 ≤ c.privFd)
    {host serv : Option CString} {hints : List UInt8} (plainHost : ∀ s ∈ host, 0 ∉ s)
    (plainServ : ∀ s ∈ serv, 0 ∉ s) (whole : hints.length = sizeofAddrinfo)
    (working : p.memory.curState.value < PrivState.quit.value) :
    Agrees k errno p c (.getaddrinfo host serv hints) ↔
      (k.getaddrinfo (p.clock + 1)).length < 2 ^ 31 := by
  refine (agrees_iff_parts serves priv working
    (getaddrinfo_ends serves (hnamCopy_plain plainHost) hnamCopy_short (hnamCopy_plain plainServ)
      hnamCopy_short whole) ?_).trans (iff_of_eq (true_and _))
  exact Ends.bind_pure (g := fun result => Returned.addresses result.1 result.2)
    (fun _ _ same => by simpa [Prod.ext_iff] using same)
    (Stub.receiveAddresses_ends (serves.addresses _) (serves.counted _))

theorem runScript_agrees_iff (serves : k.Serves) (priv : 0 ≤ c.privFd) {argv env : List CString}
    (typedArgv : ∀ s ∈ argv, 0 ∉ s ∧ s.length + 1 < 2 ^ 64)
    (typedEnv : ∀ s ∈ env, 0 ∉ s ∧ s.length + 1 < 2 ^ 64)
    (countedArgv : argv.length < 2 ^ 31) (countedEnv : env.length < 2 ^ 31)
    (someArgv : argv ≠ []) (someEnv : env ≠ [])
    (working : p.memory.curState.value < PrivState.quit.value) :
    Agrees k errno p c (.runScript argv env) ↔
      k.Callocs (p.clock + 1) argv ∧ k.Callocs (p.clock + 2 + argv.length) env := by
  refine (agrees_iff_parts serves priv working
    (runScript_ends serves (fun s member => (typedArgv s member).1)
      (fun s member => (typedArgv s member).2) someArgv countedArgv
      (fun s member => (typedEnv s member).1) (fun s member => (typedEnv s member).2) someEnv
      countedEnv) ?_).trans (iff_of_eq (and_true _))
  exact Ends.bind (Stub.mustReadInt_returns (isInt_status serves _ _))
    (Ends.pure (iff_of_true rfl trivial))

theorem reloadResolver_agrees (serves : k.Serves) (priv : 0 ≤ c.privFd)
    (working : p.memory.curState.value < PrivState.quit.value) :
    Agrees k errno p c .reloadResolver :=
  (agrees_iff_parts serves priv working reloadResolver_ends
    (Ends.pure (iff_of_true rfl trivial))).mpr ⟨trivial, trivial⟩

theorem setRunningState_agrees (serves : k.Serves) (priv : 0 ≤ c.privFd)
    (before : p.memory.curState.value < PrivState.running.value) :
    Agrees k errno p c .setRunningState :=
  (agrees_iff_parts serves priv (before.trans (by decide)) (setRunningState_ends serves before)
    (Ends.pure (iff_of_true rfl trivial))).mpr ⟨trivial, trivial⟩

end Exchanges

/-- Every call that is allowed, whatever the father gets from its surroundings. -/
theorem call_agrees_iff {k : Kernel} (errno : Int) {p : Parent} {c : Child} {call : Call}
    (serves : k.Serves) (priv : 0 ≤ c.privFd) (typed : call.Typed) (bounded : call.Bounded)
    (allowed : call.Allowed p.memory.curState) :
    Agrees k errno p c call ↔ call.Served k p.clock p.memory := by
  cases call with
  | openConfig configPath => exact openConfig_agrees_iff serves priv typed bounded allowed
  | openTun tuntapmode devname mtu =>
      obtain ⟨modeInt, mtuInt, plain⟩ := typed
      obtain ⟨present, short⟩ := bounded
      cases devname with
      | none => exact absurd rfl present
      | some name =>
          exact openTun_agrees_iff serves priv modeInt mtuInt (plain name rfl) (short name rfl)
            allowed
  | initScript path =>
      exact iff_of_true (initScript_agrees serves priv typed bounded allowed) trivial
  | getaddrinfo host serv hints =>
      obtain ⟨plainHost, plainServ, whole⟩ := typed
      exact getaddrinfo_agrees_iff serves priv plainHost plainServ whole allowed
  | runScript argv env =>
      obtain ⟨typedArgv, typedEnv, countedArgv, countedEnv⟩ := typed
      obtain ⟨someArgv, someEnv⟩ := bounded
      exact runScript_agrees_iff serves priv typedArgv typedEnv countedArgv countedEnv someArgv
        someEnv allowed
  | reloadResolver => exact iff_of_true (reloadResolver_agrees serves priv allowed) trivial
  | setRunningState => exact iff_of_true (setRunningState_agrees serves priv allowed) trivial

/-- Surroundings in which every device is this one. -/
def deviceKernel (device : Int × CString) : Kernel where
  endian := .little
  cwd := rootDirectory
  chld _ := false
  openFd _ := 5
  stat _ := .ok ⟨0o700, 0⟩
  tuntap _ := device
  getaddrinfo _ := []
  calloc _ _ := true
  malloc _ _ := true
  write _ := true
  script _ := 0

theorem deviceKernel_serves {device : Int × CString} (plain : 0 ∉ device.2)
    (fitting : device.2.length ≤ ifNamSiz - 1) : (deviceKernel device).Serves where
  alive _ := rfl
  write _ := rfl
  openFd _ := (by decide : (-1 : Int) ≤ 5)
  plainName _ := plain
  fittingName _ := fitting
  addresses _ := nofun
  counted _ := Nat.pow_pos Nat.two_pos
  script _ := (by decide : IsInt 0)

/-- The father while the configuration is read for the first time. -/
def configuring : Parent := { Parent.start [] with memory := ⟨.config, [], []⟩ }

/-- A device whose name the caller chooses. -/
def openDevice (name : CString) : Call := .openTun 0 (some name) 1500

/-- The longest name that the father has room for, which fills the buffer of the caller. -/
def longName : CString := List.replicate 15 97

theorem openDevice_typed {name : CString} (plain : 0 ∉ name) : (openDevice name).Typed :=
  ⟨by decide, by decide, fun _ given => Option.some.inj given ▸ plain⟩

theorem openDevice_bounded {name : CString} (short : name.length ≤ ifNamSiz - 1) :
    (openDevice name).Bounded :=
  ⟨Option.some_ne_none name, fun _ given => Option.some.inj given ▸ short⟩

theorem openDevice_allowed (name : CString) : (openDevice name).Allowed configuring.memory.curState := rfl

/-- The device gets the name that was asked for. -/
theorem device_agrees : Agrees (deviceKernel (7, [109])) 2 configuring ⟨3, [], []⟩ (openDevice [109]) :=
  (call_agrees_iff 2 (deviceKernel_serves (by decide) (by decide)) (by decide)
    (openDevice_typed (by decide)) (openDevice_bounded (by decide)) (openDevice_allowed _)).mpr
    ⟨⟨.inl rfl, by decide, by decide⟩, by decide, by decide⟩

/-- A name of fifteen characters fits the father's buffer and the caller's, and the device gets
    it, but the child refuses it and exits.  Where no device could be opened the child returns
    the descriptor 0. -/
theorem device_refused :
    (deviceKernel (7, longName)).Serves ∧ (openDevice longName).Typed ∧ (openDevice longName).Bounded ∧
      (openDevice longName).Allowed configuring.memory.curState ∧
      ¬ Agrees (deviceKernel (7, longName)) 2 configuring ⟨3, [], []⟩ (openDevice longName) ∧
      (outcome ((openDevice longName).stub .little)
        ⟨3, [], configuring.reply (deviceKernel (7, longName)) 2 (openDevice longName)⟩).1 =
          .error (.errx
            "priv_open_tun: device name returned by privileged service is too long.") ∧
      (deviceKernel (-1, [109])).Serves ∧
      ¬ Agrees (deviceKernel (-1, [109])) 2 configuring ⟨3, [], []⟩ (openDevice [109]) ∧
      (outcome ((openDevice [109]).stub .little)
        ⟨3, [], configuring.reply (deviceKernel (-1, [109])) 2 (openDevice [109])⟩).1 =
          .ok (.device 0 (some [109])) :=
  ⟨deviceKernel_serves (by decide) (by decide), openDevice_typed (by decide),
    openDevice_bounded (by decide), openDevice_allowed _, by decide +kernel, by decide +kernel,
    deviceKernel_serves (by decide) (by decide), by decide +kernel, by decide +kernel⟩

end Mlvpn.Privsep
