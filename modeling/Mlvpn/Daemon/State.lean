import Mlvpn.Tunnel.Link
import Mlvpn.Wire.Proto

/-! # The daemon: tunnels, their status, and the table of the round robin

The globals of `mlvpn.c` and `wrr.c`, and the functions that move a tunnel
between the values of `enum chap_status`.  A tunnel is named by its number in
the order of creation; the structures are never freed.

`trace` records, newest first, what the daemon does; no function reads it.
`none` is a process that has aborted or touched memory that is not its own.  The title of the
process is left out here and in the loop: what `update_process_title` stores, beyond its array for
a long name, is in `Mlvpn.Control.Formats`.
-/

namespace Mlvpn

/-- The calls of `priv_run_script`. -/
inductive Script where
  | rtunUp (name : String)
  | rtunDown (name : String)
  | tuntapUp
  | tuntapDown
  deriving Repr, DecidableEq

inductive Effect where
  | created (i : Nat)
  /-- A datagram that `mlvpn_protocol_read` returned 0 for, and whether it went
      through `crypto_decrypt`. -/
  | accepted (i : Nat) (type : PktType) (decrypted : Bool)
  /-- A call of `mlvpn_rtun_status_down` has returned. -/
  | statusDown (i : Nat)
  /-- A packet was handed to `mlvpn_rtun_inject_tuntap`. -/
  | injected (r : Reception)
  /-- A tunnel was put into the table of the round robin. -/
  | placed (i : Nat)
  /-- A call of `mlvpn_rtun_send`. -/
  | sending (i : Nat)
  /-- A call of `crypto_encrypt`. -/
  | encrypted (nonce : List UInt8)
  /-- `sendto` took a datagram that carries a packet of this type. -/
  | sent (i : Nat) (type : PktType) (datagram : List UInt8)
  | script (command : Script)
  deriving Repr, DecidableEq

structure Daemon (κ : Type) where
  host : Host κ
  /-- The structures of the tunnels created so far -/
  tuns : List Tunnel
  rtuns : List Nat
  dataSeq : UInt64
  /-- `mlvpn_options.cleartext_data` and `mlvpn_options.fallback_available` -/
  cleartextData : Bool
  fallbackAvailable : Nat
  /-- `mlvpn_status` -/
  fallbackMode : Nat
  connected : Nat
  initialized : Bool
  /-- The tunnels of the round robin, with `tunval` -/
  wrr : List (Nat × ℚ)
  /-- `mlvpn_filters` -/
  filters : List ((List UInt8 → Bool) × Nat)
  rx : Receive
  /-- `ev_break` was called. -/
  stopped : Bool
  trace : List Effect

variable {κ : Type}

namespace Daemon

/-- The daemon before its first configuration is read. -/
def init (host : Host κ) : Daemon κ :=
  { host := host
    tuns := []
    rtuns := []
    dataSeq := 0
    cleartextData := true
    fallbackAvailable := 0
    fallbackMode := 0
    connected := 0
    initialized := false
    wrr := []
    filters := []
    rx := .init
    stopped := false
    trace := [] }

def tun (d : Daemon κ) (i : Nat) : Tunnel := d.tuns.getD i .blank

def modify (d : Daemon κ) (i : Nat) (f : Tunnel → Tunnel) : Daemon κ :=
  { d with tuns := d.tuns.modify i f }

/-- A structure that was never allocated is not changed. -/
theorem tun_modify (d : Daemon κ) (i j : Nat) (f : Tunnel → Tunnel) :
    (d.modify i f).tun j = if j = i ∧ i < d.tuns.length then f (d.tun i) else d.tun j := by
  simp only [tun, modify, List.getD_eq_getElem?_getD, List.getElem?_modify]
  by_cases same : j = i
  · subst same
    by_cases inside : j < d.tuns.length
    · simp [inside]
    · simp [inside]
  · simp [same, Ne.symm same]

@[simp] theorem length_modify (d : Daemon κ) (i : Nat) (f : Tunnel → Tunnel) :
    (d.modify i f).tuns.length = d.tuns.length :=
  List.length_modify ..

theorem modify_modify (d : Daemon κ) (i : Nat) (f g : Tunnel → Tunnel) :
    (d.modify i f).modify i g = d.modify i (g ∘ f) := by
  simp only [modify, List.modify_modify_eq]

/-- The same change of every tunnel of a list. -/
theorem foldl_modify {d : Daemon κ} (f : Tunnel → Tunnel) (tunnels : List Nat) (distinct : tunnels.Nodup)
    (inside : ∀ j ∈ tunnels, j < d.tuns.length) :
    (tunnels.foldl (fun d i => d.modify i f) d).rtuns = d.rtuns ∧
      ∀ j, (tunnels.foldl (fun d i => d.modify i f) d).tun j =
        if j ∈ tunnels then f (d.tun j) else d.tun j := by
  induction tunnels generalizing d with
  | nil => exact ⟨rfl, fun _ => rfl⟩
  | cons i rest ih =>
      obtain ⟨fresh, distinct⟩ := List.nodup_cons.mp distinct
      obtain ⟨rtuns, tunnels⟩ := ih (d := d.modify i f) distinct fun j member => by
        rw [length_modify]
        exact inside j (List.mem_cons_of_mem i member)
      refine ⟨rtuns, fun j => ?_⟩
      rw [List.foldl_cons, tunnels, tun_modify]
      by_cases here : j = i
      · rw [here, if_neg fresh, if_pos ⟨rfl, inside i List.mem_cons_self⟩, if_pos List.mem_cons_self]
      · simp only [here, false_and, if_false, List.mem_cons, false_or]

def log (d : Daemon κ) (e : Effect) : Daemon κ := { d with trace := e :: d.trace }

/-- The receive path has moved on; what it injected is recorded. -/
def withRx (d : Daemon κ) (rx : Receive) : Daemon κ :=
  { d with
    rx := rx
    trace := ((rx.injected.drop d.rx.injected.length).map .injected).reverse ++ d.trace }

/-- `MAX_TUNNELS`. -/
def maxTunnels : Nat := 128

/-- The test of `mlvpn_rtun_wrr_reset`: no tunnel that is lossy or slow, except
    among the fallbacks. -/
def Eligible (t : Tunnel) (useFallbacks : Nat) : Prop :=
  t.fallbackOnly = useFallbacks ∧ ((t.fallbackOnly ≠ 0 ∧ t.status.Up) ∨ t.status = .authok)

instance (t : Tunnel) (useFallbacks : Nat) : Decidable (Eligible t useFallbacks) :=
  inferInstanceAs (Decidable (_ ∧ _))

def eligible (d : Daemon κ) (useFallbacks : Nat) : List Nat :=
  d.rtuns.filter fun i => Eligible (d.tun i) useFallbacks

theorem mem_eligible {d : Daemon κ} {i useFallbacks : Nat} :
    i ∈ d.eligible useFallbacks ↔ i ∈ d.rtuns ∧ Eligible (d.tun i) useFallbacks := by
  simp only [eligible, List.mem_filter, decide_eq_true_eq]

/-- `mlvpn_rtun_wrr_reset`. -/
def wrrReset (d : Daemon κ) (useFallbacks : Nat) : Option (Daemon κ) :=
  let chosen := d.eligible useFallbacks
  if chosen.length ≤ maxTunnels then
    some
      { d with
        wrr := chosen.map fun i => (i, 0)
        trace := (chosen.map .placed).reverse ++ d.trace }
  else none

/-- The loop of `wrr_min_index` from index `i` on. -/
def wrrMinIndex : List ℚ → Nat → ℚ → Nat → Nat
  | [], _, _, minIndex => minIndex
  | tunval :: rest, i, min, minIndex =>
      if tunval < min then wrrMinIndex rest (i + 1) tunval i
      else wrrMinIndex rest (i + 1) min minIndex

/-- `mlvpn_rtun_wrr_choose`. -/
def wrrChoose (d : Daemon κ) : Option Nat × Daemon κ :=
  let idx := wrrMinIndex (d.wrr.map Prod.snd) 0 100 0
  match d.wrr[idx]? with
  | none => (none, d)
  | some (i, _) =>
      let lowered := d.wrr.map fun (j, tunval) => (j, if tunval > 0 then tunval - 1 else tunval)
      (some i, { d with wrr := lowered.set idx (i, 100 / (d.tun i).weight) })

/-- `mlvpn_rtun_choose`. -/
def rtunChoose (d : Daemon κ) : Option Nat × Daemon κ := d.wrrChoose

/-- The tunnels that are connected. -/
def up (d : Daemon κ) : List Nat := d.rtuns.filter fun i => (d.tun i).status.Up

/-- `mlvpn_update_status`. -/
def updateStatus (d : Daemon κ) : Daemon κ :=
  { d with
    fallbackMode := if ∃ i ∈ d.up, (d.tun i).fallbackOnly = 0 then 0 else d.fallbackAvailable
    connected := d.up.length }

/-- `mlvpn_rtun_status_up`. -/
def statusUp (d : Daemon κ) (i : Nat) (now : ℚ) : Option (Daemon κ) :=
  let d := (d.modify i (·.raised now)).updateStatus
  (d.wrrReset d.fallbackMode).bind fun d =>
    let d := d.log (.script (.rtunUp (d.tun i).name))
    if d.connected > 0 ∧ d.initialized = false then
      let d := { d.log (.script .tuntapUp) with initialized := true }
      d.rx.statusDrain.map d.withRx
    else some d

/-- The interface goes down with the last connection. -/
def tuntapDown (d : Daemon κ) : Daemon κ :=
  if d.connected = 0 ∧ d.initialized = true then
    { d.log (.script .tuntapDown) with initialized := false }
  else d

theorem tuntapDown_wrr (d : Daemon κ) : d.tuntapDown.wrr = d.wrr := by
  rw [tuntapDown]
  split <;> rfl

/-- What `mlvpn_rtun_status_down` does for a tunnel that was connected. -/
def afterDown (d : Daemon κ) (i : Nat) : Option (Daemon κ) :=
  let d := d.log (.script (.rtunDown (d.tun i).name))
  (d.wrrReset d.fallbackMode).bind fun d =>
    d.tuntapDown.rx.statusDrain.map d.tuntapDown.withRx

/-- `mlvpn_rtun_status_down`. -/
def statusDown (d : Daemon κ) (i : Nat) : Option (Daemon κ) :=
  let old := (d.tun i).status
  let d := (d.modify i Tunnel.lowered).updateStatus
  (if old.Up then d.afterDown i else some d).map fun d => d.log (.statusDown i)

/-- `switch_to_fallback_if_necessary`. -/
def switchToFallbackIfNecessary (d : Daemon κ) : Option (Daemon κ) :=
  if ∃ i ∈ d.rtuns, (d.tun i).fallbackOnly = 0 ∧ (d.tun i).status ≠ .highLatency ∧
      (d.tun i).status ≠ .lossy then
    { d with fallbackMode := 0 }.wrrReset 0
  else if d.fallbackAvailable ≠ 0 then { d with fallbackMode := 1 }.wrrReset 1
  else some d

/-- A changed status is stored, and the table may be rebuilt. -/
def regrade (d : Daemon κ) (i : Nat) : Option Status → Option (Daemon κ)
  | none => some d
  | some status => (d.modify i fun t => { t with status := status }).switchToFallbackIfNecessary

/-- `mlvpn_rtun_check_lossy`. -/
def checkLossy (d : Daemon κ) (i : Nat) : Option (Daemon κ) := d.regrade i (d.tun i).lossyStatus

/-- `mlvpn_rtun_check_slow`. -/
def checkSlow (d : Daemon κ) (i : Nat) : Option (Daemon κ) := d.regrade i (d.tun i).slowStatus

/-- `mlvpn_rtun_send_auth`. -/
def sendAuth (d : Daemon κ) (i : Nat) (now : ℚ) : Option (Daemon κ) :=
  let t := d.tun i
  if t.serverMode then
    if t.status = .disconnected ∨ t.status.Up then
      ((d.modify i fun t => t.queueAuthOk.tick now).statusUp i now).map fun d =>
        d.modify i fun t => { t with ioWrite := true }
    else some d
  else if t.status = .authsent then (d.modify i (·.tick now)).statusUp i now
  else some d

/-- How `mlvpn_rtun_send_auth` can end. -/
inductive SendsAuth (d : Daemon κ) (i : Nat) (now : ℚ) : Daemon κ → Prop where
  | answers {d₁ : Daemon κ} : (d.tun i).serverMode = true →
      (d.tun i).status = .disconnected ∨ (d.tun i).status.Up →
      (d.modify i fun t => t.queueAuthOk.tick now).statusUp i now = some d₁ →
      SendsAuth d i now (d₁.modify i fun t => { t with ioWrite := true })
  | confirms {d' : Daemon κ} : (d.tun i).serverMode = false → (d.tun i).status = .authsent →
      (d.modify i (·.tick now)).statusUp i now = some d' → SendsAuth d i now d'
  | ignores : ¬ (if (d.tun i).serverMode then (d.tun i).status = .disconnected ∨ (d.tun i).status.Up
      else (d.tun i).status = .authsent) → SendsAuth d i now d

theorem sendAuth_cases {d d' : Daemon κ} {i : Nat} {now : ℚ} (done : d.sendAuth i now = some d') :
    SendsAuth d i now d' := by
  unfold sendAuth at done
  dsimp only at done
  split at done
  next server =>
    split at done
    next ready =>
      obtain ⟨d₁, raised, rfl⟩ := Option.map_eq_some_iff.mp done
      exact .answers server ready raised
    next unready =>
      cases done
      exact .ignores (by rwa [if_pos server])
  next client =>
    split at done
    next sent => exact .confirms (Bool.eq_false_iff.mpr client) sent done
    next unready =>
      cases done
      exact .ignores (by rwa [if_neg client])

end Daemon

end Mlvpn
