import Mlvpn.Buffer.Freebuffer
import Mlvpn.Buffer.Pktbuffer
import Mlvpn.Reorder.Buffer
import Mathlib.Data.Rat.Defs

/-! # The receive path

`mlvpn.c` from `mlvpn_rtun_recv_data` to the queue of the tuntap device: a data
packet is injected at once, or waits in the pool while the reorder buffer holds
a pointer to its entry.  An entry of the pool is its index, and the memory of
the pool carries receptions, so that a packet can be followed by its arrival.

`received` and `injected` record what was handed to `recvData` and what was
handed to `injectTuntap`; no function reads them, except that a reception is
numbered by the packets before it.  `none` is a process that has aborted or
touched memory that is not its own.
-/

namespace Mlvpn

open Reorder

/-- A data packet handed to `mlvpn_rtun_recv_data`, with its number and the
    tunnel it came from. -/
structure Reception where
  rid : Nat
  tun : Nat
  pkt : Pkt
  deriving Repr, DecidableEq

/-- `ev_timer`, as far as the program uses it; `period` is the field `repeat`. -/
structure Timer where
  active : Bool
  period : ℚ

namespace Timer

def stop (t : Timer) : Timer := { t with active := false }

/-- `ev_timer_again`: a timer without a period is stopped. -/
def again (t : Timer) : Timer := { t with active := decide (t.period ≠ 0) }

end Timer

/-- The part of the program's state that the receive path works on. -/
structure Receive where
  reorderBuffer : Option (ReorderBuffer Nat)
  /-- `mlvpn_options.reorder_buffer_size` -/
  reorderBufferSize : UInt32
  freebuf : Freebuffer Reception
  /-- The timer `reorder_drain_timeout` -/
  drainTimeout : Timer
  /-- `tuntap.sbuf` -/
  sbuf : Pktbuffer
  /-- Whether the watcher `tuntap.io_write` is active -/
  ioWrite : Bool
  received : List Reception
  injected : List Reception

namespace Receive

/-- The state `main` sets up before the first configuration is read. -/
def init : Receive :=
  { reorderBuffer := none
    reorderBufferSize := 0
    freebuf := freebufferInit ⟨0, 0, .zero⟩ 512
    drainTimeout := ⟨false, 0⟩
    sbuf := pktbufferInit pktbufsize
    ioWrite := false
    received := []
    injected := [] }

/-- `mlvpn_rtun_inject_tuntap`. -/
def injectTuntap (s : Receive) (r : Reception) : Receive :=
  { s with
    sbuf := pktbufferWrite s.sbuf fun slot =>
      { slot with len := r.pkt.len, data := slot.copyData r.pkt r.pkt.len }
    ioWrite := true
    injected := s.injected ++ [r] }

/-- The loop of `mlvpn_rtun_reorder_drain` over the used entries, with the
    packets drained.  Each turn takes one entry off the list, so its length is
    enough fuel (`drainUsed_enough`). -/
def drainUsed : Nat → Nat → Receive → Nat × Receive
  | 0, drained, s => (drained, s)
  | fuel + 1, drained, s =>
      match freebufferDrainUsed s.freebuf with
      | none => (drained, s)
      | some (entry, freebuf) =>
          drainUsed fuel (drained + 1)
            (injectTuntap { s with freebuf := freebuf } (s.freebuf.mem entry))

/-- The loop of `mlvpn_rtun_reorder_drain` over the pointers of an ordered drain. -/
def injectDrained : List (Option Nat) → Receive → Option Receive
  | [], s => some s
  | none :: _, _ => none
  | some entry :: rest, s =>
      (freebufferFree s.freebuf entry).bind fun freebuf =>
        injectDrained rest { injectTuntap s (s.freebuf.mem entry) with freebuf := freebuf }

/-- The timer is stopped once the pool is empty. -/
def stopIfUnused (s : Receive) : Receive :=
  if s.freebuf.used = 0 then { s with drainTimeout := s.drainTimeout.stop } else s

/-- `mlvpn_rtun_reorder_drain(0)`: everything in the pool, oldest first. -/
def reorderDrainAll (s : Receive) : Option (Nat × Receive) :=
  let (drained, s) := drainUsed s.freebuf.usedHead.length 0 s
  match s.reorderBuffer with
  | none => none
  | some b =>
      some (drained,
        stopIfUnused
          { s with freebuf := freebufferReset s.freebuf, reorderBuffer := some (reorderReset b) })

/-- `mlvpn_rtun_reorder_drain(1)`: what the reorder buffer lets go, in order. -/
def reorderDrainOrdered (s : Receive) : Option (Nat × Receive) :=
  match s.reorderBuffer with
  | none => none
  | some b =>
      let drained := reorderDrain b 1024
      (injectDrained drained.1 { s with reorderBuffer := some drained.2 }).map fun s =>
        (drained.1.length, stopIfUnused s)

/-- The end of `mlvpn_rtun_recv_data`: packets that wait are given a timeout. -/
def restartIfUsed (result : Nat × Receive) : Nat × Receive :=
  if result.2.freebuf.used > 0 then
    (result.1, { result.2 with drainTimeout := result.2.drainTimeout.again })
  else result

/-- `mlvpn_rtun_recv_data` after `mlvpn_freebuffer_get`, with the entry it gave.
    A store outside the allocation of the reorder buffer is undefined. -/
def recvEntry (s : Receive) (b : ReorderBuffer Nat) (entry : Nat) (r : Reception) :
    Option (Nat × Receive) :=
  if b.Allocated then
    let (ret, b) := reorderInsert b entry r.pkt.seq
    if ret = -1 then
      (reorderDrainAll { s with reorderBuffer := some (reorderReset b) }).map restartIfUsed
    else if ret = -2 then
      -- the entry stays on the used list
      some (1, injectTuntap { s with reorderBuffer := some b } r)
    else
      (reorderDrainOrdered { s with reorderBuffer := some b }).map restartIfUsed
  else none

/-- The reception `mlvpn_rtun_recv_data` is called for. -/
def arrival (s : Receive) (tun : Nat) (pkt : Pkt) : Reception := ⟨s.received.length, tun, pkt⟩

/-- `mlvpn_rtun_recv_data`. -/
def recvData (s : Receive) (tun : Nat) (pkt : Pkt) : Option (Nat × Receive) :=
  let r := s.arrival tun pkt
  let s := { s with received := s.received ++ [r] }
  match s.reorderBuffer with
  | none => some (1, injectTuntap s r)
  | some b =>
      if pkt.reorder then
        match freebufferGet s.freebuf with
        | none => some (1, injectTuntap s r)
        | some (entry, freebuf) =>
            recvEntry { s with freebuf := freebuf.store entry r } b entry r
      else some (1, injectTuntap s r)

/-- `mlvpn_rtun_reorder_drain_timeout`, when the timer expires.  A timer that is
    not active does not expire, and one without a period does so once. -/
def reorderDrainTimeout (s : Receive) : Option Receive :=
  if s.drainTimeout.active then
    (reorderDrainAll { s with drainTimeout := s.drainTimeout.again }).map fun drained =>
      stopIfUnused drained.2
  else some s

/-- The drain of `mlvpn_rtun_status_up` and `mlvpn_rtun_status_down`. -/
def statusDrain (s : Receive) : Option Receive :=
  match s.reorderBuffer with
  | none => some s
  | some _ =>
      (reorderDrainAll s).map fun drained =>
        { drained.2 with reorderBuffer := drained.2.reorderBuffer.map reorderReset }

/-- `mlvpn_config`, where it reads `reorder_buffer_size`.  A size of zero leaves
    the buffer as it is. -/
def configReorderBufferSize (s : Receive) (size : UInt32) : Receive :=
  if size ≠ s.reorderBufferSize then
    { s with
      reorderBufferSize := size
      reorderBuffer := if size > 0 then some (reorderCreate size.toNat) else s.reorderBuffer }
  else s

/-- What can happen to the receive path. -/
inductive Event where
  | recv (tun : Nat) (pkt : Pkt)
  | timeout
  | statusChange
  | reload (size : UInt32)
  /-- `mlvpn_rtun_adjust_reorder_timeout` sets the period of the drain timer. -/
  | adjust (period : ℚ)
  /-- `tuntap_io_event` for writing: one packet leaves the queue, whatever `write` returns. -/
  | tuntapWrite

def step (s : Receive) : Event → Option Receive
  | .recv tun pkt => (recvData s tun pkt).map Prod.snd
  | .timeout => reorderDrainTimeout s
  | .statusChange => statusDrain s
  | .reload size => some (configReorderBufferSize s size)
  | .adjust period => some { s with drainTimeout := { s.drainTimeout with period := period } }
  | .tuntapWrite =>
      if s.ioWrite then
        if cbIsEmpty s.sbuf then none
        else
          let sbuf := (pktbufferRead s.sbuf).2
          some { s with sbuf := sbuf, ioWrite := ¬ cbIsEmpty sbuf }
      else some s

end Receive

end Mlvpn
