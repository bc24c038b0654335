import Mlvpn.Daemon.State

/-! # What a change of status leaves

The functions that rebuild the table of the round robin, and run the scripts,
touch no tunnel but the one they are called for.  What they record is that a
connected tunnel was placed, or that a packet was injected.
-/

namespace Mlvpn.Daemon

variable {κ : Type} {d d' : Daemon κ} {i : Nat} {new : List Reception}

/-- An effect that says nothing new of a tunnel: it is in use, as it may be if it
    is connected, or a packet that was received leaves. -/
inductive Passing (d : Daemon κ) (new : List Reception) : Effect → Prop where
  | script (command : Script) : Passing d new (.script command)
  | placed (j : Nat) : (d.tun j).status.Up → Passing d new (.placed j)
  | injected (r : Reception) : r ∈ new → Passing d new (.injected r)

theorem Passing.congr {e : Effect} (tuns : d'.tuns = d.tuns)
    (passing : Passing d' new e) : Passing d new e := by
  cases passing with
  | script command => exact .script command
  | placed j connected => exact .placed j (by rwa [tun, ← tuns])
  | injected r member => exact .injected r member

/-- Nothing but the table, the interface and the receive path is touched. -/
structure Passes (d d' : Daemon κ) (new : List Reception) : Prop where
  tuns : d'.tuns = d.tuns
  rtuns : d'.rtuns = d.rtuns
  host : d'.host = d.host
  available : d'.fallbackAvailable = d.fallbackAvailable
  trace : ∃ effects, d'.trace = effects ++ d.trace ∧ ∀ e ∈ effects, Passing d new e

theorem Passes.trans {d'' : Daemon κ} (first : Passes d d' new) (second : Passes d' d'' new) :
    Passes d d'' new where
  tuns := second.tuns.trans first.tuns
  rtuns := second.rtuns.trans first.rtuns
  host := second.host.trans first.host
  available := second.available.trans first.available
  trace := by
    obtain ⟨effects, logged, passing⟩ := first.trace
    obtain ⟨effects', logged', passing'⟩ := second.trace
    refine ⟨effects' ++ effects, by rw [logged', logged, List.append_assoc], fun e member => ?_⟩
    rcases List.mem_append.mp member with late | early
    · exact (passing' e late).congr first.tuns
    · exact passing e early

theorem Passes.silent (tuns : d'.tuns = d.tuns) (rtuns : d'.rtuns = d.rtuns)
    (host : d'.host = d.host) (available : d'.fallbackAvailable = d.fallbackAvailable)
    (trace : d'.trace = d.trace) : Passes d d' new :=
  ⟨tuns, rtuns, host, available, [], trace, fun _ member => by cases member⟩

theorem Passes.script (command : Script) : Passes d (d.log (.script command)) new :=
  ⟨rfl, rfl, rfl, rfl, [.script command], rfl, fun _ member => List.mem_singleton.mp member ▸ .script _⟩

theorem wrrReset_passes (new : List Reception) {useFallbacks : Nat}
    (done : d.wrrReset useFallbacks = some d') :
    Passes d d' new ∧ d'.rx = d.rx := by
  rw [wrrReset] at done
  split at done
  next =>
    cases done
    refine ⟨⟨rfl, rfl, rfl, rfl, _, rfl, fun e member => ?_⟩, rfl⟩
    obtain ⟨j, chosen, rfl⟩ := List.mem_map.mp (List.mem_reverse.mp member)
    obtain ⟨_, _, fallback | ok⟩ := mem_eligible.mp chosen
    · exact .placed j fallback.2
    · exact .placed j (by rw [ok]; decide)
  next => cases done

theorem withRx_passes (d : Daemon κ) (rx : Receive) :
    Passes d (d.withRx rx) (rx.injected.drop d.rx.injected.length) := by
  refine ⟨rfl, rfl, rfl, rfl, _, rfl, fun e member => ?_⟩
  obtain ⟨r, new, rfl⟩ := List.mem_map.mp (List.mem_reverse.mp member)
  exact .injected r new

theorem tuntapDown_passes (d : Daemon κ) (new : List Reception) :
    Passes d d.tuntapDown new ∧ d.tuntapDown.rx = d.rx := by
  rw [tuntapDown]
  split
  next =>
    exact ⟨(Passes.script .tuntapDown).trans (.silent rfl rfl rfl rfl rfl), rfl⟩
  next => exact ⟨.silent rfl rfl rfl rfl rfl, rfl⟩

/-- What `mlvpn_rtun_status_down` leaves. -/
structure Lowers (d d' : Daemon κ) (i : Nat) : Prop where
  drained : (d.tun i).status.Up → d.rx.statusDrain = some d'.rx
  idle : ¬ (d.tun i).status.Up → d'.rx = d.rx
  passes : ∃ d₁, d' = d₁.log (.statusDown i) ∧
    Passes (d.modify i Tunnel.lowered) d₁ (d'.rx.injected.drop d.rx.injected.length)

theorem statusDown_lowers (done : d.statusDown i = some d') : Lowers d d' i := by
  obtain ⟨d₁, ended, rfl⟩ := Option.map_eq_some_iff.mp done
  split at ended
  next connected =>
    obtain ⟨d₂, reset, rest⟩ := Option.bind_eq_some_iff.mp ended
    obtain ⟨rx, drained, rfl⟩ := Option.map_eq_some_iff.mp rest
    obtain ⟨placed, kept⟩ := wrrReset_passes (rx.injected.drop d.rx.injected.length) reset
    obtain ⟨closed, same⟩ := tuntapDown_passes d₂ (rx.injected.drop d.rx.injected.length)
    have left := withRx_passes d₂.tuntapDown rx
    have before : d₂.tuntapDown.rx = d.rx := same.trans kept
    rw [before] at drained left
    refine ⟨fun _ => drained, absurd connected, _, rfl, ?_⟩
    have updated : Passes (d.modify i Tunnel.lowered) (d.modify i Tunnel.lowered).updateStatus
        (rx.injected.drop d.rx.injected.length) := .silent rfl rfl rfl rfl rfl
    exact ((updated.trans (.script _)).trans placed).trans (closed.trans left)
  next idle =>
    cases ended
    exact ⟨fun connected => absurd connected idle, fun _ => rfl, _, rfl, .silent rfl rfl rfl rfl rfl⟩

end Mlvpn.Daemon
