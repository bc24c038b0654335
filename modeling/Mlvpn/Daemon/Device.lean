import Mlvpn.Daemon.References
import Mlvpn.Daemon.Strokes
import Mlvpn.Receive.Device

/-! # What the device is written

A packet that was injected is handed to `write` when `tuntap_io_event` finds that the tuntap
device can take it.  Over a whole run of the program, with every order of its callbacks, a part
of what was injected is handed to `write`, in that order.
-/

namespace Mlvpn.Daemon

open Library.Machine

variable {κ : Type} {d d' : Daemon κ} {now : ℚ} {e : Event κ}

/-- What an event hands to `write` for the device. -/
def written (d : Daemon κ) : ℚ × Event κ → List (List UInt8)
  | (_, .tuntapWrite) => if d.stopped then [] else d.rx.written
  | _ => []

theorem Stroke.fed (stroke : Stroke now e d d') (other : e ≠ .tuntapWrite) : d.rx.Fed d'.rx := by
  refine stroke.rx (.of_same rfl rfl rfl) ?_ ?_ fun _ => Receive.statusDrain_fed
  · exact fun _ _ _ _ _ stepped => Receive.step_fed (fun write => by cases write) stepped
  · intro event rx asks stepped
    refine Receive.step_fed (fun write => ?_) stepped
    subst write
    cases asks
    exact other rfl

theorem Strokes.fed (strokes : Strokes now e d d') (other : e ≠ .tuntapWrite) : d.rx.Fed d'.rx := by
  induction strokes with
  | refl => exact .of_same rfl rfl rfl
  | tail _ last ih => exact ih.trans (last.fed other)

/-- There is room in the queue for everything that an event injects. -/
def Roomy (d : Daemon κ) (event : ℚ × Event κ) : Prop :=
  ∀ d' ∈ d.step event, d.rx.waiting.length + d'.rx.handed.length ≤ d.rx.handed.length + pktbufsize

instance (d : Daemon κ) (event : ℚ × Event κ) : Decidable (d.Roomy event) :=
  inferInstanceAs (Decidable (∀ d' ∈ d.step event, _ ≤ _))

/-- An event keeps the order of what was written and what waits, and nothing is lost while there
    is room. -/
theorem step_ordered {event : ℚ × Event κ} {out : List (List UInt8)} (tidy : d.Tidy)
    (ordered : d.rx.Ordered out) (done : d.step event = some d') :
    d'.rx.Ordered (out ++ d.written event) ∧ (d.Roomy event → out ++ d.rx.waiting = d.rx.handed →
      out ++ d.written event ++ d'.rx.waiting = d'.rx.handed) := by
  obtain ⟨now, e⟩ := event
  by_cases writes : e = .tuntapWrite
  · subst writes
    simp only [step, written] at done ⊢
    split at done
    next stopped =>
      cases done
      rw [if_pos stopped, List.append_nil]
      exact ⟨ordered, fun _ all => all⟩
    next running =>
      obtain ⟨rx, stepped, rfl⟩ := Option.map_eq_some_iff.mp done
      obtain ⟨kept, first, same⟩ := ordered.written stepped
      rw [if_neg running]
      refine ⟨kept, fun _ all => ?_⟩
      rw [List.append_assoc]
      exact (congrArg (out ++ ·) first).trans (all.trans same.symm)
  · have nothing : d.written (now, e) = [] := by
      cases e <;> first | rfl | exact absurd rfl writes
    have fed := (step_strokes tidy done).fed writes
    rw [nothing, List.append_nil]
    exact ⟨ordered.fed fed, fun roomy => ordered.fed_all fed (roomy d' done)⟩

/-- Whatever happens, reloads included, what is handed to `write` for the device and then what
    waits for it is a part of what was injected, in that order.  What waits is the end of it, and
    the queue loses nothing if there is always room for what is injected. -/
theorem device_order {host : Host κ} {events : List (ℚ × Event κ)}
    (reached : run step (init host) events = some d) :
    let out := (visits step (init host) events).flatMap fun visit => visit.1.written visit.2
    (out ++ d.rx.waiting).Sublist d.rx.handed ∧ d.rx.waiting <:+ d.rx.handed ∧
      (Meets step Roomy (init host) events → out ++ d.rx.waiting = d.rx.handed) := by
  intro out
  have held : d.Tidy ∧ d.rx.Ordered ([] ++ out) :=
    run_outputs (I := fun (s : Daemon κ) out => s.Tidy ∧ s.rx.Ordered out)
      (fun s event s' out kept _ done => ⟨step_tidy kept.1 done, (step_ordered kept.1 kept.2 done).1⟩)
      events ⟨tidy_init host, Receive.ordered_init⟩ (meets_of_forall events (fun _ _ _ => trivial) _)
      reached
  refine ⟨held.2.order, held.2.newest, fun roomy => ?_⟩
  have empty : [] ++ (init host).rx.waiting = (init host).rx.handed := by
    rw [List.nil_append]
    exact Receive.waiting_init.trans Receive.handed_init.symm
  have all : (d.Tidy ∧ d.rx.Ordered ([] ++ out)) ∧ [] ++ out ++ d.rx.waiting = d.rx.handed :=
    run_outputs (I := fun (s : Daemon κ) out =>
        (s.Tidy ∧ s.rx.Ordered out) ∧ out ++ s.rx.waiting = s.rx.handed)
      (fun s event s' out kept room done => by
        obtain ⟨ordered, complete⟩ := step_ordered kept.1.1 kept.1.2 done
        exact ⟨⟨step_tidy kept.1.1 done, ordered⟩, complete room kept.2⟩)
      events ⟨⟨tidy_init host, Receive.ordered_init⟩, empty⟩ roomy reached
  exact all.2

/-- A packet of data reaches a tunnel of a server. -/
def carried (i : Nat) (data : List UInt8) : ℚ × Event Unit :=
  let pkt : Pkt := { len := data.length, type := .data, reorder := true, seq := 0, data := data }
  let datagram := sendDatagram ⟨.little, plainBox, ()⟩ true (sendHeader .blank 0 0 pkt).1 pkt
  (3, .read i (.datagram (datagram.getD []) [10] true))

/-- Of three packets one is handed to `write`, and two wait. -/
theorem device_order_of_three :
    ∃ d ∈ run step (init ⟨.little, plainBox, ()⟩) (serverRun [serverConf "a" 0] ++
        [carried 0 [7], carried 0 [8], (4, .tuntapWrite), carried 0 [9]]),
      d.rx.waiting = [[8], [9]] ∧ d.rx.waiting <:+ d.rx.handed ∧ d.rx.handed = [[7], [8], [9]] := by
  obtain ⟨d, reached, waiting, handed⟩ :
      ∃ d ∈ run step (init ⟨.little, plainBox, ()⟩) (serverRun [serverConf "a" 0] ++
          [carried 0 [7], carried 0 [8], (4, .tuntapWrite), carried 0 [9]]),
        d.rx.waiting = [[8], [9]] ∧ d.rx.handed = [[7], [8], [9]] := by
    decide +kernel
  exact ⟨d, reached, waiting, (device_order reached).2.1, handed⟩

end Mlvpn.Daemon
