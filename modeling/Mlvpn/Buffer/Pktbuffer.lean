import Mlvpn.Packet

/-! # The packet ring

`buffer.c`: the circular buffer of preallocated packets behind every queue.
One slot stays free, so `size` is one more than the capacity.
-/

namespace Mlvpn

/-- `circular_buffer_t` with its packets; `stop` is the field `end`. -/
structure Pktbuffer where
  size : Nat
  start : Nat
  stop : Nat
  pkts : Nat → Pkt

def pktbufferInit (size : Nat) : Pktbuffer :=
  { size := size + 1, start := 0, stop := 0, pkts := fun _ => .zero }

/-- `mlvpn_cb_reset` and `mlvpn_pktbuffer_reset`. -/
def pktbufferReset (buf : Pktbuffer) : Pktbuffer := { buf with start := 0, stop := 0 }

def cbIsFull (buf : Pktbuffer) : Prop := (buf.stop + 1) % buf.size = buf.start

def cbIsEmpty (buf : Pktbuffer) : Prop := buf.stop = buf.start

instance (buf : Pktbuffer) : Decidable (cbIsFull buf) := inferInstanceAs (Decidable (_ = _))

instance (buf : Pktbuffer) : Decidable (cbIsEmpty buf) := inferInstanceAs (Decidable (_ = _))

/-- `mlvpn_pktbuffer_write`, with what the caller then stores in the slot it
    is given.  A full ring gives up its oldest packet. -/
def pktbufferWrite (buf : Pktbuffer) (fill : Pkt → Pkt) : Pktbuffer :=
  let stop := (buf.stop + 1) % buf.size
  { buf with
    stop := stop
    start := if stop = buf.start then (buf.start + 1) % buf.size else buf.start
    pkts := Function.update buf.pkts buf.stop (fill { buf.pkts buf.stop with len := 0, type := .data }) }

/-- `mlvpn_pktbuffer_read`: the packet in the first slot, which is released. -/
def pktbufferRead (buf : Pktbuffer) : Pkt × Pktbuffer :=
  (buf.pkts buf.start, { buf with start := (buf.start + 1) % buf.size })

namespace Pktbuffer

/-- The indices stay inside a ring that can hold at least one packet. -/
structure Wf (buf : Pktbuffer) : Prop where
  roomy : 1 < buf.size
  startLt : buf.start < buf.size
  stopLt : buf.stop < buf.size

instance (buf : Pktbuffer) : Decidable buf.Wf :=
  decidable_of_iff (1 < buf.size ∧ buf.start < buf.size ∧ buf.stop < buf.size)
    ⟨fun ⟨roomy, startLt, stopLt⟩ => ⟨roomy, startLt, stopLt⟩,
      fun wf => ⟨wf.roomy, wf.startLt, wf.stopLt⟩⟩

variable {buf : Pktbuffer}

theorem wf_init {size : Nat} (positive : 0 < size) : (pktbufferInit size).Wf :=
  ⟨Nat.succ_lt_succ positive, Nat.succ_pos size, Nat.succ_pos size⟩

/-- One step round a ring of two or more slots moves. -/
theorem succ_mod_ne {size n : Nat} (roomy : 1 < size) (inside : n < size) : (n + 1) % size ≠ n := by
  intro same
  rcases Nat.lt_or_ge (n + 1) size with below | wraps
  · rw [Nat.mod_eq_of_lt below] at same
    omega
  · have last : n + 1 = size := by omega
    rw [last, Nat.mod_self] at same
    omega

theorem Wf.write (wf : buf.Wf) (fill : Pkt → Pkt) :
    (pktbufferWrite buf fill).Wf ∧ ¬ cbIsEmpty (pktbufferWrite buf fill) := by
  obtain ⟨roomy, startLt, stopLt⟩ := wf
  have positive : 0 < buf.size := by omega
  have stopBound : (buf.stop + 1) % buf.size < buf.size := Nat.mod_lt _ positive
  have startBound : (buf.start + 1) % buf.size < buf.size := Nat.mod_lt _ positive
  by_cases meets : (buf.stop + 1) % buf.size = buf.start
  · simp only [pktbufferWrite, meets, if_true, cbIsEmpty]
    exact ⟨⟨roomy, startBound, startLt⟩, fun same => succ_mod_ne roomy startLt same.symm⟩
  · simp only [pktbufferWrite, meets, if_false, cbIsEmpty]
    exact ⟨⟨roomy, startLt, stopBound⟩, not_false⟩

theorem Wf.read (wf : buf.Wf) : (pktbufferRead buf).2.Wf :=
  ⟨wf.roomy, Nat.mod_lt _ (Nat.zero_lt_of_lt wf.startLt), wf.stopLt⟩

theorem Wf.reset (wf : buf.Wf) : (pktbufferReset buf).Wf :=
  ⟨wf.roomy, Nat.zero_lt_of_lt wf.startLt, Nat.zero_lt_of_lt wf.startLt⟩

end Pktbuffer

end Mlvpn
