import Mlvpn.Daemon.References
import Mlvpn.Receive.Pool

/-! # The address of the peer

A tunnel sends to the source of the last datagram it accepted.  A datagram of
data is accepted in clear if the configuration says so, and the test that should
keep strangers out never holds, so such a datagram moves the address.
-/

namespace Mlvpn.Daemon

open Library.Machine Tunnel

variable {κ : Type} {d d' : Daemon κ} {i : Nat}

/-- `mlvpn_protocol_read` on a datagram that a tunnel has received. -/
def readDatagram (d : Daemon κ) (i : Nat) (now : ℚ) (bytes : List UInt8) :
    Option (Bool × Pkt) × Tunnel :=
  protocolRead d.host d.cleartextData (timestamp64 now) (d.tun i) (bytes.take defaultMtu)

/-- The datagram passes `crypto_decrypt`. -/
def Decrypts (d : Daemon κ) (i : Nat) (now : ℚ) (bytes : List UInt8) : Prop :=
  ∃ pkt, (d.readDatagram i now bytes).1 = some (true, pkt)

/-- The datagram is accepted without having passed it. -/
def InClear (d : Daemon κ) (i : Nat) (now : ℚ) (bytes : List UInt8) : Prop :=
  ∃ pkt, (d.readDatagram i now bytes).1 = some (false, pkt)

/-- A datagram has no effect but on the measurements of its tunnel. -/
structure Rejected (d d' : Daemon κ) : Prop where
  rx : d'.rx = d.rx
  status : ∀ j, (d'.tun j).status = (d.tun j).status
  addrinfo : ∀ j, (d'.tun j).addrinfo = (d.tun j).addrinfo
  queues : ∀ j, (d'.tun j).sbuf = (d.tun j).sbuf ∧ (d'.tun j).hpsbuf = (d.tun j).hpsbuf

/-- Only an authenticated datagram moves the address of a peer, and one that is
    not authenticated and comes from elsewhere is rejected. -/
def Guarded (d : Daemon κ) (i : Nat) (now : ℚ) (bytes : List UInt8) (sender : Addr)
    (named : Bool) : Prop :=
  (∀ d' ∈ d.rtunRead i now (.datagram bytes sender named), ∀ j,
      (d'.tun j).addrinfo ≠ (d.tun j).addrinfo → j = i ∧ d.Decrypts i now bytes) ∧
    (¬ d.Decrypts i now bytes → ∀ addr, (d.tun i).addrinfo = some addr → addr ≠ sender →
      ∃ d' ∈ d.rtunRead i now (.datagram bytes sender named), Rejected d d')

/-- A datagram in clear from elsewhere, which is not rejected: the tunnel takes
    packets, or the address of the sender is stored over the old one and is not
    the beginning of it. -/
def Strays (d : Daemon κ) (i : Nat) (now : ℚ) (bytes : List UInt8) (sender : Addr)
    (named : Bool) : Prop :=
  d.InClear i now bytes ∧ ∃ addr, (d.tun i).addrinfo = some addr ∧ addr ≠ sender ∧
    ((d.tun i).status.Up ∨ named = true ∧ ¬ sender <+: addr)

theorem addrinfo_modify {f : Tunnel → Tunnel} (same : (f (d.tun i)).addrinfo = (d.tun i).addrinfo)
    (j : Nat) : ((d.modify i f).tun j).addrinfo = (d.tun j).addrinfo := by
  rw [tun_modify]
  split
  next here => rw [same, here.1]
  next => rfl

theorem statusUp_addrinfo {now : ℚ} (done : d.statusUp i now = some d') (j : Nat) :
    (d'.tun j).addrinfo = (d.tun j).addrinfo := by
  rw [tun, (statusUp_rebuilds done).tuns]
  exact addrinfo_modify rfl j

theorem statusDown_addrinfo (done : d.statusDown i = some d') (j : Nat) :
    (d'.tun j).addrinfo = (d.tun j).addrinfo := by
  obtain ⟨d₁, rfl, passes⟩ := (statusDown_lowers done).passes
  rw [tun, log, passes.tuns]
  exact addrinfo_modify rfl j

theorem sendAuth_addrinfo {now : ℚ} (done : d.sendAuth i now = some d') (j : Nat) :
    (d'.tun j).addrinfo = (d.tun j).addrinfo := by
  cases sendAuth_cases done with
  | @answers d₁ _ _ raised =>
      have up := statusUp_addrinfo raised j
      have watched : ((d₁.modify i fun t => { t with ioWrite := true }).tun j).addrinfo =
          (d₁.tun j).addrinfo := addrinfo_modify rfl j
      rw [watched, up]
      exact addrinfo_modify rfl j
  | confirms _ _ raised =>
      rw [statusUp_addrinfo raised j]
      exact addrinfo_modify rfl j
  | ignores _ => rfl

/-- The address is not changed by what a packet says. -/
theorem dispatch_addrinfo {now : ℚ} {pkt : Pkt} (done : d.dispatch i now pkt = some d') (j : Nat) :
    (d'.tun j).addrinfo = (d.tun j).addrinfo := by
  cases dispatch_cases done with
  | ignores => rfl
  | delivers _ _ _ => exact addrinfo_modify rfl j
  | keepsAlive _ =>
      apply addrinfo_modify
      unfold Tunnel.keepaliveReceived Tunnel.sendKeepalive Tunnel.queueBare
      dsimp only
      split_ifs <;> rfl
  | disconnects _ down => exact statusDown_addrinfo down j
  | handshakes _ answered => exact sendAuth_addrinfo answered j

/-- The tunnel once a datagram is accepted and counted. -/
def counted (d : Daemon κ) (i : Nat) (now : ℚ) (bytes : List UInt8) : Tunnel :=
  (d.readDatagram i now bytes).2.countReceived (bytes.take defaultMtu).length

theorem counted_fields (d : Daemon κ) (i : Nat) (now : ℚ) (bytes : List UInt8) :
    (d.counted i now bytes).addrinfo = (d.tun i).addrinfo ∧
      (d.counted i now bytes).status = (d.tun i).status ∧
      (d.counted i now bytes).sbuf = (d.tun i).sbuf ∧
      (d.counted i now bytes).hpsbuf = (d.tun i).hpsbuf := by
  have measured := protocolRead_remeasured d.host d.cleartextData (timestamp64 now) (d.tun i)
    (bytes.take defaultMtu)
  unfold counted readDatagram
  rw [measured]
  exact ⟨rfl, rfl, rfl, rfl⟩

theorem rtunRead_refused {now : ℚ} {bytes : List UInt8} (sender : Addr) (named : Bool)
    (refused : (d.readDatagram i now bytes).1 = none) :
    d.rtunRead i now (.datagram bytes sender named) =
      some (d.modify i fun _ => (d.readDatagram i now bytes).2) := by
  unfold readDatagram at refused ⊢
  unfold rtunRead
  dsimp only
  split
  next read => rw [read]
  next read =>
    rw [read] at refused
    cases refused

theorem rtunRead_accepted {now : ℚ} {bytes : List UInt8} (sender : Addr) (named : Bool)
    {decrypted : Bool} {pkt : Pkt} (accepted : (d.readDatagram i now bytes).1 = some (decrypted, pkt)) :
    d.rtunRead i now (.datagram bytes sender named) =
      ((d.counted i now bytes).adoptAddr sender named).bind fun t =>
        ((d.modify i fun _ => t).log (.accepted i pkt.type decrypted)).dispatch i now pkt := by
  unfold counted
  unfold readDatagram at accepted ⊢
  unfold rtunRead
  dsimp only
  split
  next read =>
    rw [read] at accepted
    cases accepted
  next read =>
    rw [read] at accepted ⊢
    cases accepted
    rfl

/-- A packet that is taken in clear is data. -/
theorem type_of_inClear {now : ℚ} {bytes : List UInt8} {pkt : Pkt}
    (accepted : (d.readDatagram i now bytes).1 = some (false, pkt)) : pkt.type = .data := by
  by_contra control
  have read : protocolRead d.host d.cleartextData (timestamp64 now) (d.tun i)
      (bytes.take defaultMtu) = (some (false, pkt), (d.readDatagram i now bytes).2) :=
    Prod.ext accepted rfl
  exact Bool.false_ne_true ((protocolRead_accepts read).2 control)

theorem adoptAddr_stays {t : Tunnel} {addr sender : Addr} {named : Bool}
    (stored : t.addrinfo = some addr) (stays : addr = sender ∨ named = false ∨ sender <+: addr) :
    t.adoptAddr sender named = some t := by
  unfold Tunnel.adoptAddr
  rw [stored]
  dsimp only
  split
  next changes =>
    rcases stays with same | unnamed | begins
    · exact absurd same changes.1
    · rw [unnamed] at changes
      cases changes.2
    · rw [if_pos begins.length_le, List.prefix_iff_eq_append.mp begins, ← stored]
  next => rfl

theorem adoptAddr_moves {t t' : Tunnel} {addr sender : Addr} (stored : t.addrinfo = some addr)
    (other : addr ≠ sender) (begins : ¬ sender <+: addr)
    (adopted : t.adoptAddr sender true = some t') : t'.addrinfo ≠ some addr := by
  unfold Tunnel.adoptAddr at adopted
  rw [stored] at adopted
  dsimp only at adopted
  rw [if_pos ⟨other, rfl⟩] at adopted
  split at adopted
  next =>
    cases adopted
    intro same
    exact begins ⟨_, Option.some.inj same⟩
  next => cases adopted

/-- Of a tunnel, only what is measured and counted differs. -/
theorem Rejected.of_tuns {t : Tunnel} (tuns : d'.tuns = (d.modify i fun _ => t).tuns)
    (rx : d'.rx = d.rx) (addrinfo : t.addrinfo = (d.tun i).addrinfo)
    (status : t.status = (d.tun i).status) (sbuf : t.sbuf = (d.tun i).sbuf)
    (hpsbuf : t.hpsbuf = (d.tun i).hpsbuf) : Rejected d d' := by
  have either : ∀ j, d'.tun j = d.tun j ∨ j = i ∧ d'.tun j = t := by
    intro j
    have same : d'.tun j = (d.modify i fun _ => t).tun j := by rw [tun, tuns, tun]
    rw [same, tun_modify]
    split
    next here => exact .inr ⟨here.1, rfl⟩
    next => exact .inl rfl
  refine ⟨rx, fun j => ?_, fun j => ?_, fun j => ?_⟩
  all_goals rcases either j with same | ⟨rfl, same⟩
  all_goals rw [same]
  · exact status
  · exact addrinfo
  · exact ⟨rfl, rfl⟩
  · exact ⟨sbuf, hpsbuf⟩

/-- A tunnel with an address exists. -/
theorem lt_of_addrinfo {addr : Addr} (stored : (d.tun i).addrinfo = some addr) :
    i < d.tuns.length := by
  by_contra outside
  rw [tun_eq_blank outside] at stored
  cases stored

/-- A datagram that is not accepted has no effect at all. -/
theorem refused_rejected {now : ℚ} {bytes : List UInt8} (sender : Addr) (named : Bool)
    (refused : (d.readDatagram i now bytes).1 = none) :
    ∃ d' ∈ d.rtunRead i now (.datagram bytes sender named), Rejected d d' := by
  obtain ⟨addrinfo, status, sbuf, hpsbuf⟩ := counted_fields d i now bytes
  exact ⟨_, rtunRead_refused sender named refused, .of_tuns rfl rfl addrinfo status sbuf hpsbuf⟩

/-- The packets of a connected tunnel are taken. -/
theorem received_of_up {now : ℚ} {pkt : Pkt} (data : pkt.type = .data) (up : (d.tun i).status.Up)
    (done : d.dispatch i now pkt = some d') : d'.rx ≠ d.rx := by
  simp only [dispatch, data, if_pos up] at done
  obtain ⟨rx, stepped, rfl⟩ := Option.map_eq_some_iff.mp done
  obtain ⟨⟨n, rx'⟩, received, rfl⟩ := Option.map_eq_some_iff.mp stepped
  intro same
  have counted := (Receive.recvData_kept received).received
  rw [show rx' = (d.modify i (·.tick now)).rx from same] at counted
  exact List.cons_ne_nil _ _ (List.self_eq_append_right.mp counted)

/-- Those of a tunnel that is not connected are not. -/
theorem ignored_of_idle {now : ℚ} {pkt : Pkt} (data : pkt.type = .data)
    (idle : ¬ (d.tun i).status.Up) : d.dispatch i now pkt = some d := by
  simp only [dispatch, data, if_neg idle]

theorem not_guarded_of_strays {now : ℚ} {bytes : List UInt8} {sender : Addr} {named : Bool}
    (strays : d.Strays i now bytes sender named) : ¬ d.Guarded i now bytes sender named := by
  obtain ⟨⟨pkt, clear⟩, addr, stored, other, astray⟩ := strays
  rintro ⟨_, rejects⟩
  have unauthenticated : ¬ d.Decrypts i now bytes := by
    rintro ⟨_, decrypted⟩
    rw [clear] at decrypted
    cases decrypted
  obtain ⟨d', done, rejected⟩ := rejects unauthenticated addr stored other
  obtain ⟨addrinfo, status, _, _⟩ := counted_fields d i now bytes
  rw [rtunRead_accepted sender named clear] at done
  obtain ⟨t, adopted, dispatched⟩ := Option.bind_eq_some_iff.mp done
  have there : ((d.modify i fun _ => t).log (.accepted i pkt.type false)).tun i = t :=
    tun_modify_self (lt_of_addrinfo stored) _
  rcases astray with up | ⟨rfl, begins⟩
  · refine received_of_up (type_of_inClear clear) ?_ dispatched rejected.rx
    rw [there, (Still.adoptAddr adopted).status, status]
    exact up
  · have moved := adoptAddr_moves (addrinfo.trans stored) other begins adopted
    refine moved ?_
    rw [← stored, ← rejected.addrinfo i, dispatch_addrinfo dispatched i, there]

/-- What becomes of a datagram in clear that does not stray. -/
theorem clear_rejected {now : ℚ} {bytes : List UInt8} {sender addr : Addr} {named : Bool} {pkt : Pkt}
    (clear : (d.readDatagram i now bytes).1 = some (false, pkt))
    (stored : (d.tun i).addrinfo = some addr) (idle : ¬ (d.tun i).status.Up)
    (stays : named = false ∨ sender <+: addr) :
    ∃ d' ∈ d.rtunRead i now (.datagram bytes sender named), Rejected d d' := by
  obtain ⟨addrinfo, status, sbuf, hpsbuf⟩ := counted_fields d i now bytes
  have kept := adoptAddr_stays (addrinfo.trans stored) (.inr stays)
  have there : ((d.modify i fun _ => d.counted i now bytes).log (.accepted i pkt.type false)).tun i =
      d.counted i now bytes := tun_modify_self (lt_of_addrinfo stored) _
  refine ⟨(d.modify i fun _ => d.counted i now bytes).log (.accepted i pkt.type false), ?_,
    .of_tuns rfl rfl addrinfo status sbuf hpsbuf⟩
  rw [rtunRead_accepted sender named clear, kept, Option.bind_some]
  apply ignored_of_idle (type_of_inClear clear)
  rw [there, status]
  exact idle

/-- A datagram in clear that does not stray leaves an address that it does not come from:
    the tunnel is not connected, and the sender is unknown or does not differ enough. -/
theorem settled_of_not_strays {now : ℚ} {bytes : List UInt8} {sender addr : Addr} {named : Bool}
    (kept : ¬ d.Strays i now bytes sender named) (stored : (d.tun i).addrinfo = some addr)
    (clear : d.InClear i now bytes) (other : addr ≠ sender) :
    ¬ (d.tun i).status.Up ∧ (named = false ∨ sender <+: addr) := by
  constructor
  · intro up
    exact kept ⟨clear, addr, stored, other, .inl up⟩
  · by_contra moves
    rw [not_or, Bool.not_eq_false] at moves
    exact kept ⟨clear, addr, stored, other, .inr moves⟩

theorem adoptAddr_of_not_strays {now : ℚ} {bytes : List UInt8} {sender : Addr} {named : Bool}
    (kept : ¬ d.Strays i now bytes sender named) (clear : d.InClear i now bytes) {t : Tunnel}
    (adopted : (d.counted i now bytes).adoptAddr sender named = some t) :
    t.addrinfo = (d.tun i).addrinfo := by
  obtain ⟨same, _⟩ := counted_fields d i now bytes
  cases stored : (d.tun i).addrinfo with
  | none =>
      unfold Tunnel.adoptAddr at adopted
      rw [same, stored] at adopted
      cases adopted
  | some addr =>
      have stays : addr = sender ∨ named = false ∨ sender <+: addr := by
        by_cases own : addr = sender
        · exact .inl own
        · exact .inr (settled_of_not_strays kept stored clear own).2
      rw [adoptAddr_stays (same.trans stored) stays] at adopted
      cases adopted
      exact same.trans stored

/-- An address that changes is the one of the tunnel that has read the datagram, and the
    datagram was authenticated. -/
theorem decrypts_of_moved {now : ℚ} {bytes : List UInt8} {sender : Addr} {named : Bool}
    (kept : ¬ d.Strays i now bytes sender named)
    (done : d.rtunRead i now (.datagram bytes sender named) = some d') {j : Nat}
    (moved : (d'.tun j).addrinfo ≠ (d.tun j).addrinfo) : j = i ∧ d.Decrypts i now bytes := by
  cases read : (d.readDatagram i now bytes).1 with
  | none =>
      obtain ⟨d₁, refused, rejected⟩ := refused_rejected sender named read
      cases Option.mem_unique done refused
      exact absurd (rejected.addrinfo j) moved
  | some result =>
      obtain ⟨decrypted, pkt⟩ := result
      rw [rtunRead_accepted sender named read] at done
      obtain ⟨t, adopted, dispatched⟩ := Option.bind_eq_some_iff.mp done
      rw [dispatch_addrinfo dispatched j] at moved
      have here : j = i := by
        by_contra elsewhere
        apply moved
        rw [tun, log]
        exact congrArg Tunnel.addrinfo ((tun_modify ..).trans (if_neg fun both => elsewhere both.1))
      subst here
      cases decrypted with
      | true => exact ⟨rfl, pkt, read⟩
      | false =>
          have same := adoptAddr_of_not_strays kept ⟨pkt, read⟩ adopted
          exact absurd (addrinfo_modify (d := d) (i := j) (f := fun _ => t) same j) moved

/-- Whatever the tunnel, the configuration and the datagram: the address of the
    peer is guarded unless the datagram is taken in clear and strays. -/
theorem guarded_iff_not_strays (d : Daemon κ) (i : Nat) (now : ℚ) (bytes : List UInt8)
    (sender : Addr) (named : Bool) :
    d.Guarded i now bytes sender named ↔ ¬ d.Strays i now bytes sender named := by
  constructor
  · intro guarded strays
    exact not_guarded_of_strays strays guarded
  intro kept
  constructor
  · intro d' done j moved
    exact decrypts_of_moved kept done moved
  · intro unauthenticated addr stored other
    cases read : (d.readDatagram i now bytes).1 with
    | none => exact refused_rejected sender named read
    | some result =>
        obtain ⟨decrypted, pkt⟩ := result
        cases decrypted with
        | true => exact absurd ⟨pkt, read⟩ unauthenticated
        | false =>
            obtain ⟨idle, stays⟩ := settled_of_not_strays kept stored ⟨pkt, read⟩ other
            exact clear_rejected read stored idle stays

/-- One byte of data in clear, as anybody can send it. -/
def strayDatagram : List UInt8 := [0, 1, 0x31, 4] ++ List.replicate 24 0 ++ [69]

/-- A server that takes data in clear has opened its tunnel.  Nobody has been
    authenticated, and a stranger moves the address to their own. -/
theorem address_moved_by_stranger :
    ∃ d ∈ run step (init ⟨.little, plainBox, ()⟩) ((serverRun [serverConf "a" 0]).take 2),
      (d.tun 0).status = .disconnected ∧ (d.tun 0).addrinfo = some [127] ∧
        ¬ d.Guarded 0 3 strayDatagram [10] true ∧
        ∃ d' ∈ d.rtunRead 0 3 (.datagram strayDatagram [10] true), (d'.tun 0).addrinfo = some [10] := by
  obtain ⟨d, reached, status, addr, clear, d', done, moved⟩ :
      ∃ d ∈ run step (init ⟨.little, plainBox, ()⟩) ((serverRun [serverConf "a" 0]).take 2),
        (d.tun 0).status = .disconnected ∧ (d.tun 0).addrinfo = some [127] ∧
          (d.readDatagram 0 3 strayDatagram).1.map Prod.fst = some false ∧
          ∃ d' ∈ d.rtunRead 0 3 (.datagram strayDatagram [10] true),
            (d'.tun 0).addrinfo = some [10] := by
    decide +kernel
  refine ⟨d, reached, status, addr, fun guarded => ?_, d', done, moved⟩
  have changed : (d'.tun 0).addrinfo ≠ (d.tun 0).addrinfo := by
    rw [moved, addr]
    decide
  obtain ⟨_, pkt, decrypted⟩ := guarded.1 d' done 0 changed
  rw [decrypted] at clear
  cases clear

end Mlvpn.Daemon
