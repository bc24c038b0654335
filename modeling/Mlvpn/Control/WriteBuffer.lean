import Mlvpn.Library.Machine
import Mathlib.Data.Int.DivMod

/-! # The write buffer of the control socket

`control.c`: answers are appended to `wbuf` and sent from its start.  `wbuflen`
and `wbufpos` are of type `int`, the length of an answer is a `size_t`, and the
capacity test is made in `size_t`.  Signed overflow and stores outside the
buffer are undefined, which is `none` here.
-/

namespace Mlvpn

open Library.Machine

/-- The fields of `struct mlvpn_control` that writing and sending work on. -/
structure Control where
  clientfd : Int
  wbuf : Nat → UInt8
  /-- The bytes allocated behind `wbuf` -/
  allocated : Nat
  wbuflen : Int
  wbufpos : Int
  closeAfterWrite : Bool
  /-- Whether the watcher `client_io_write` is active -/
  ioWrite : Bool

namespace Control

/-- The state `mlvpn_control_init` leaves, with any content of the fresh buffer. -/
def controlInit (garbage : Nat → UInt8) : Control :=
  { clientfd := -1
    wbuf := garbage
    allocated := 4096
    wbuflen := 4096
    wbufpos := 0
    closeAfterWrite := false
    ioWrite := false }

/-- The largest value of type `int`. -/
def intMax : Int := 2 ^ 31 - 1

/-- Conversion to `size_t`. -/
def sizeT (x : Int) : Nat := (x % 2 ^ 64).toNat

/-- Conversion to `int`. -/
def toInt (n : Nat) : Int := (n : Int).bmod (2 ^ 32)

def controlCloseClient (c : Control) : Control := { c with clientfd := -1, ioWrite := false }

/-- The capacity test of `mlvpn_control_write`: an unsigned difference is at most
    zero when it is zero. -/
def Exhausted (c : Control) (len : Nat) : Prop := sizeT (c.wbuflen - (c.wbufpos + len)) ≤ 0

instance (c : Control) (len : Nat) : Decidable (Exhausted c len) :=
  inferInstanceAs (Decidable (_ ≤ _))

/-- "Hard realloc". -/
def grow (c : Control) : Option Control :=
  let wbuflen := c.wbuflen + 1024 * 32
  if wbuflen ≤ intMax then some { c with wbuflen := wbuflen, allocated := sizeT wbuflen } else none

/-- `memcpy(ctrl->wbuf+ctrl->wbufpos, buf, len)` and the lines after it. -/
def append (c : Control) (buf : List UInt8) : Option (Int × Control) :=
  if 0 ≤ c.wbufpos ∧ c.wbufpos + buf.length ≤ c.allocated then
    some (toInt buf.length,
      { c with
        wbuf := fun i =>
          if c.wbufpos.toNat ≤ i then (buf[i - c.wbufpos.toNat]?).getD (c.wbuf i) else c.wbuf i
        wbufpos := toInt (sizeT (c.wbufpos + buf.length))
        ioWrite := true })
  else none

/-- `mlvpn_control_write`. -/
def controlWrite (c : Control) (buf : List UInt8) : Option (Int × Control) :=
  (if Exhausted c buf.length then grow c else some c).bind fun c =>
    if Exhausted c buf.length then some (-1, controlCloseClient c) else append c buf

/-- What `write` answers: an error, or how much it takes of what it is given. -/
abbrev Written := Option Nat

/-- The bytes sent leave the buffer, and the others move to its start. -/
def consume (c : Control) (ret : Nat) : Control :=
  { c with
    wbuf := fun i => if i < c.wbufpos - ret then c.wbuf (i + ret) else c.wbuf i
    wbufpos := c.wbufpos - ret }

/-- The end of `mlvpn_control_send`. -/
def afterSend (c : Control) : Control :=
  let c := if c.closeAfterWrite ∧ c.wbufpos ≤ 0 then controlCloseClient c else c
  if c.wbufpos ≤ 0 then { c with ioWrite := false } else c

/-- `mlvpn_control_send`. -/
def controlSend (c : Control) (result : Written) : Int × Control :=
  if c.wbufpos ≤ 0 then (-1, c)
  else
    match result with
    | none => (-1, afterSend (controlCloseClient c))
    | some n =>
        let ret := min n c.wbufpos.toNat
        (ret, afterSend (consume c ret))

/-- `mlvpn_control_accept`, given the descriptor of the new connection. -/
def controlAccept (c : Control) (fd : Int) : Control :=
  if c.clientfd ≠ -1 then c else { c with clientfd := fd, wbufpos := 0 }

inductive Event where
  | write (buf : List UInt8)
  | send (result : Written)
  | accept (fd : Int)
  | close

def step (c : Control) : Event → Option Control
  | .write buf => (controlWrite c buf).map Prod.snd
  | .send result => some (controlSend c result).2
  | .accept fd => some (controlAccept c fd)
  | .close => some (controlCloseClient c)

/-- The invariant of the write buffer. -/
structure Sound (c : Control) : Prop where
  low : 0 ≤ c.wbufpos
  high : c.wbufpos ≤ c.wbuflen
  allocated : (c.allocated : Int) = c.wbuflen
  max : c.wbuflen ≤ intMax

/-- The bytes waiting to be sent. -/
def pending (c : Control) : List UInt8 := (List.range c.wbufpos.toNat).map c.wbuf

/-- An answer leaves room in the buffer, or fills it while it can grow. -/
def Room (c : Control) : Event → Prop
  | .write buf =>
      c.wbufpos + buf.length < c.wbuflen ∨
        (c.wbufpos + buf.length = c.wbuflen ∧ c.wbuflen + 32768 ≤ intMax)
  | _ => True

theorem toInt_sizeT {x : Int} (low : 0 ≤ x) (high : x ≤ intMax) : toInt (sizeT x) = x := by
  unfold intMax at high
  have small : x % 2 ^ 64 = x := by omega
  unfold toInt sizeT
  rw [small, Int.bmod_def]
  split <;> omega

theorem exhausted_iff (c : Control) (len : Nat) :
    Exhausted c len ↔ (c.wbuflen - (c.wbufpos + len)) % 2 ^ 64 = 0 := by
  rw [Exhausted, sizeT]
  omega

theorem sound_init (garbage : Nat → UInt8) : Sound (controlInit garbage) := by
  constructor <;> simp [controlInit, intMax]

/-- A store inside the buffer appends to the bytes that wait. -/
theorem append_sound {c : Control} (sound : Sound c) (buf : List UInt8)
    (inside : c.wbufpos + buf.length ≤ c.wbuflen) :
    ∃ c', append c buf = some (toInt buf.length, c') ∧ Sound c' ∧ pending c' = pending c ++ buf := by
  obtain ⟨low, high, allocated, max⟩ := sound
  have fits : 0 ≤ c.wbufpos ∧ c.wbufpos + buf.length ≤ c.allocated := by omega
  have moved : toInt (sizeT (c.wbufpos + buf.length)) = c.wbufpos + buf.length :=
    toInt_sizeT (by omega) (by omega)
  refine ⟨_, if_pos fits, ⟨?_, ?_, allocated, max⟩, ?_⟩
  · simp only [moved]
    omega
  · simp only [moved]
    exact inside
  · obtain ⟨pos, isPos⟩ := Int.eq_ofNat_of_zero_le low
    have total : (c.wbufpos + buf.length).toNat = pos + buf.length := by omega
    have start : c.wbufpos.toNat = pos := by omega
    simp only [pending, moved, total, start]
    rw [List.range_add, List.map_append, List.map_map]
    refine congrArg₂ (· ++ ·) ?_ ?_
    · apply List.map_congr_left
      intro i member
      rw [if_neg (by have := List.mem_range.mp member; omega)]
    · apply List.ext_getElem
      · simp
      · intro i _ inBuf
        simp [inBuf]

/-- With room the answer is stored; without, the call is undefined. -/
theorem controlWrite_of_room {c : Control} (sound : Sound c) {buf : List UInt8}
    (room : Room c (.write buf)) :
    ∃ c', controlWrite c buf = some (toInt buf.length, c') ∧ Sound c' ∧
      pending c' = pending c ++ buf := by
  have ⟨low, high, allocated, max⟩ := sound
  unfold intMax at max
  rcases room with below | ⟨full, growable⟩
  · have fine : ¬ Exhausted c buf.length := by
      rw [exhausted_iff]
      omega
    obtain ⟨c', stored, after⟩ := append_sound sound buf (by omega)
    exact ⟨c', by simp only [controlWrite, fine, if_false, Option.bind_some, stored], after⟩
  · have exhausted : Exhausted c buf.length := by
      rw [exhausted_iff]
      omega
    let c₁ : Control :=
      { c with wbuflen := c.wbuflen + 1024 * 32, allocated := sizeT (c.wbuflen + 1024 * 32) }
    have grown : grow c = some c₁ := by
      simp only [grow, show c.wbuflen + 1024 * 32 ≤ intMax from growable, if_true, c₁]
    have sound₁ : Sound c₁ := by
      refine ⟨low, ?_, ?_, growable⟩
      · simp only [c₁]
        omega
      · unfold intMax at growable
        simp only [c₁, sizeT]
        omega
    have fine : ¬ Exhausted c₁ buf.length := by
      rw [exhausted_iff]
      simp only [c₁]
      omega
    obtain ⟨c', stored, after⟩ := append_sound sound₁ buf (by simp only [c₁]; omega)
    refine ⟨c', ?_, after⟩
    simp only [controlWrite, exhausted, if_true, grown, Option.bind_some, fine, if_false, stored]

theorem controlWrite_of_no_room {c : Control} (sound : Sound c) {buf : List UInt8}
    (crowded : ¬ Room c (.write buf)) : controlWrite c buf = none := by
  have ⟨low, high, allocated, max⟩ := sound
  simp only [Room, not_or, not_and] at crowded
  by_cases exhausted : Exhausted c buf.length
  · by_cases growable : c.wbuflen + 1024 * 32 ≤ intMax
    · let c₁ : Control :=
        { c with wbuflen := c.wbuflen + 1024 * 32, allocated := sizeT (c.wbuflen + 1024 * 32) }
      have grown : grow c = some c₁ := by simp only [grow, growable, if_true, c₁]
      have outside : ¬ (0 ≤ c₁.wbufpos ∧ c₁.wbufpos + buf.length ≤ c₁.allocated) := by
        have above : c.wbuflen < c.wbufpos + buf.length := by
          have := crowded.2
          omega
        rw [exhausted_iff] at exhausted
        unfold intMax at growable
        simp only [c₁, sizeT]
        omega
      have fine : ¬ Exhausted c₁ buf.length := by
        rw [exhausted_iff] at exhausted ⊢
        simp only [c₁]
        omega
      simp only [controlWrite, exhausted, if_true, grown, Option.bind_some, fine, if_false, append,
        outside]
    · simp only [controlWrite, exhausted, if_true, grow, growable, if_false, Option.bind_none]
  · have outside : ¬ (0 ≤ c.wbufpos ∧ c.wbufpos + buf.length ≤ c.allocated) := by
      rw [exhausted_iff] at exhausted
      omega
    simp only [controlWrite, exhausted, if_false, Option.bind_some, append, outside]

theorem afterSend_buffer (c : Control) :
    (afterSend c).wbuf = c.wbuf ∧ (afterSend c).wbufpos = c.wbufpos ∧
      (afterSend c).wbuflen = c.wbuflen ∧ (afterSend c).allocated = c.allocated := by
  simp only [afterSend]
  split <;> split <;> exact ⟨rfl, rfl, rfl, rfl⟩

theorem Sound.of_same {c c' : Control} (sound : Sound c) (wbufpos : c'.wbufpos = c.wbufpos)
    (wbuflen : c'.wbuflen = c.wbuflen) (allocated : c'.allocated = c.allocated) : Sound c' := by
  constructor
  · exact wbufpos ▸ sound.low
  · rw [wbufpos, wbuflen]
    exact sound.high
  · rw [allocated, wbuflen]
    exact sound.allocated
  · exact wbuflen ▸ sound.max

theorem pending_consume {c : Control} (low : 0 ≤ c.wbufpos) (n : Nat) :
    pending (consume c (min n c.wbufpos.toNat)) = (pending c).drop n := by
  apply List.ext_getElem
  · simp only [pending, consume, List.length_map, List.length_range, List.length_drop]
    omega
  · intro i inside _
    simp only [pending, consume, List.length_map, List.length_range] at inside
    have whole : min n c.wbufpos.toNat = n := by omega
    have within : (i : Int) < c.wbufpos - n := by omega
    simp only [pending, consume, whole, within, if_true, List.getElem_map, List.getElem_range,
      List.getElem_drop, Nat.add_comm]

/-- Sending takes bytes from the front of those that wait. -/
theorem controlSend_sound {c : Control} (sound : Sound c) (result : Written) :
    Sound (controlSend c result).2 ∧
      pending (controlSend c result).2 = (pending c).drop (result.getD 0) := by
  have ⟨low, high, allocated, max⟩ := sound
  by_cases nothing : c.wbufpos ≤ 0
  · have empty : c.wbufpos.toNat = 0 := by omega
    simp only [controlSend, nothing, if_true]
    exact ⟨sound, by simp [pending, empty]⟩
  · cases result with
    | none =>
        obtain ⟨wbuf, wbufpos, wbuflen, alloc⟩ := afterSend_buffer (controlCloseClient c)
        simp only [controlSend, nothing, if_false]
        refine ⟨sound.of_same wbufpos wbuflen alloc, ?_⟩
        simp only [pending, wbuf, wbufpos]
        rfl
    | some n =>
        let ret := min n c.wbufpos.toNat
        have consumed : Sound (consume c ret) := by
          refine ⟨?_, ?_, allocated, max⟩ <;> simp only [consume, ret] <;> omega
        obtain ⟨wbuf, wbufpos, wbuflen, alloc⟩ := afterSend_buffer (consume c ret)
        simp only [controlSend, nothing, if_false]
        refine ⟨consumed.of_same wbufpos wbuflen alloc, ?_⟩
        have same : pending (afterSend (consume c ret)) = pending (consume c ret) := by
          rw [pending, wbuf, wbufpos, pending]
        rw [same]
        exact pending_consume low n

/-- The invariant is kept by every step that is defined, and those are the steps
    with room. -/
theorem step_of_room {c : Control} (sound : Sound c) {e : Event} (room : Room c e) :
    ∃ c', step c e = some c' := by
  cases e with
  | write buf =>
      obtain ⟨c', stored, _⟩ := controlWrite_of_room sound room
      exact ⟨c', by rw [step, stored]; rfl⟩
  | send result => exact ⟨_, rfl⟩
  | accept fd => exact ⟨_, rfl⟩
  | close => exact ⟨_, rfl⟩

theorem room_of_step {c c' : Control} (sound : Sound c) {e : Event} (done : step c e = some c') :
    Room c e ∧ Sound c' := by
  cases e with
  | write buf =>
      by_cases room : Room c (.write buf)
      · obtain ⟨c'', stored, after, _⟩ := controlWrite_of_room sound room
        rw [step, stored] at done
        cases done
        exact ⟨room, after⟩
      · rw [step, controlWrite_of_no_room sound room] at done
        cases done
  | send result =>
      cases done
      exact ⟨trivial, (controlSend_sound sound result).1⟩
  | accept fd =>
      cases done
      refine ⟨trivial, ?_⟩
      rw [controlAccept]
      split
      · exact sound
      · exact ⟨le_refl 0, le_trans sound.low sound.high, sound.allocated, sound.max⟩
  | close =>
      cases done
      exact ⟨trivial, sound.of_same rfl rfl rfl⟩

/-- Every store of a run is inside the buffer, and the position stays between
    zero and its length, exactly when every answer finds room. -/
theorem control_write_inside_iff (garbage : Nat → UInt8) (events : List Event) :
    (∃ c, run step (controlInit garbage) events = some c ∧
        0 ≤ c.wbufpos ∧ c.wbufpos ≤ c.wbuflen) ↔
      Meets step Room (controlInit garbage) events := by
  constructor
  · rintro ⟨c, reached, _⟩
    exact (run_meets (I := Sound) (fun _ _ _ sound done => room_of_step sound done) events
      (sound_init garbage) reached).1
  · intro meets
    have progress : ∀ c e, Sound c → Room c e → ∃ c', step c e = some c' ∧ Sound c' := by
      intro c e sound room
      obtain ⟨c', done⟩ := step_of_room sound room
      exact ⟨c', done, (room_of_step sound done).2⟩
    obtain ⟨c, reached, sound⟩ := run_succeeds progress events (sound_init garbage) meets
    exact ⟨c, reached, sound.low, sound.high⟩

/-- Five answers of 1000 bytes: the fifth is stored behind the 4096 bytes of the
    buffer, since the unsigned difference is not zero. -/
theorem control_write_outside :
    (run step (controlInit fun _ => 0) (List.replicate 4 (.write (List.replicate 1000 0)))).map
        (fun c => (c.wbufpos, c.wbuflen)) = some (4000, 4096) ∧
      (run step (controlInit fun _ => 0)
        (List.replicate 5 (.write (List.replicate 1000 0)))).isNone := by
  decide +kernel

end Control

end Mlvpn
