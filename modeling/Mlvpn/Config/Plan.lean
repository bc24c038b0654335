import Mlvpn.Config.File
import Mlvpn.Daemon.Acts
import Mlvpn.Library.Registry

/-! # The settings of the tunnels

What the configuration has made of the tunnels, apart from their links: a list of
settings, one for each tunnel of `rtuns`.  A load of a configuration is a function
on this list, and no other event changes it.
-/

namespace Mlvpn

open Library Library.Machine

/-- The settings of a tunnel. -/
structure Settings where
  name : String
  bindaddr : String
  bindport : String
  bindfib : UInt32
  destaddr : String
  destport : String
  serverMode : Bool
  timeout : Nat
  fallbackOnly : Nat
  bandwidth : UInt32
  lossTolerence : Nat
  latencyTolerence : Nat
  weight : ℚ
  deriving DecidableEq

def Tunnel.settings (t : Tunnel) : Settings :=
  { name := t.name
    bindaddr := t.bindaddr
    bindport := t.bindport
    bindfib := t.bindfib
    destaddr := t.destaddr
    destport := t.destport
    serverMode := t.serverMode
    timeout := t.timeout
    fallbackOnly := t.fallbackOnly
    bandwidth := t.bandwidth
    lossTolerence := t.lossTolerence
    latencyTolerence := t.latencyTolerence
    weight := t.weight }

namespace Settings

/-- The settings of a new tunnel. -/
def create (conf : TunnelConf) (serverMode : Bool) : Settings :=
  { name := conf.name
    bindaddr := strlcpy "" 256 conf.bindaddr
    bindport := strlcpy "" 6 conf.bindport
    bindfib := conf.bindfib
    destaddr := strlcpy "" 256 conf.destaddr
    destport := strlcpy "" 6 conf.destport
    serverMode := serverMode
    timeout := conf.timeout
    fallbackOnly := conf.fallbackOnly
    bandwidth := conf.bandwidth
    lossTolerence := conf.lossTolerence
    latencyTolerence := conf.latencyTolerence
    weight := 1 }

/-- The settings of a tunnel that was there before. -/
def refit (s : Settings) (conf : TunnelConf) : Settings :=
  { s with
    bindaddr := strlcpy s.bindaddr 256 conf.bindaddr
    bindport := strlcpy s.bindport 6 conf.bindport
    bindfib := conf.bindfib
    destaddr := strlcpy s.destaddr 256 conf.destaddr
    destport := strlcpy s.destport 6 conf.destport
    fallbackOnly := conf.fallbackOnly
    bandwidth := conf.bandwidth
    lossTolerence := conf.lossTolerence
    latencyTolerence := conf.latencyTolerence }

def weigh (s : Settings) (total : UInt32) : Settings :=
  if s.bandwidth > 0 ∧ total > 0 then
    { s with weight := s.bandwidth.toNat / total.toNat * 100 }
  else s

end Settings

theorem Tunnel.settings_init (conf : TunnelConf) (serverMode : Bool) (flowId : UInt32) (now : ℚ) :
    (Tunnel.init conf serverMode flowId now).settings = .create conf serverMode := rfl

theorem Tunnel.settings_refit (t : Tunnel) (conf : TunnelConf) :
    (t.refit conf).settings = t.settings.refit conf := rfl

theorem Tunnel.settings_weigh (t : Tunnel) (total : UInt32) :
    (t.weigh total).settings = t.settings.weigh total := by
  unfold Tunnel.weigh Settings.weigh
  split
  next positive => exact (if_pos (c := t.settings.bandwidth > 0 ∧ total > 0) positive).symm
  next not => exact (if_neg (c := t.settings.bandwidth > 0 ∧ total > 0) not).symm

abbrev Plan := List Settings

namespace Plan

variable {κ : Type}

/-- The settings of the tunnel of a name. -/
abbrev get (plan : Plan) (name : String) : Option Settings := Registry.get Settings.name plan name

/-- The section of a tunnel. -/
def configTunnel (plan : Plan) (conf : TunnelConf) (serverMode : Bool) : Plan :=
  match plan.get conf.name with
  | none => if conf.Incomplete serverMode then plan else .create conf serverMode :: plan
  | some _ => Registry.revise Settings.name plan conf.name (·.refit conf)

/-- A section of the configuration, with the mode so far. -/
def configSection : Bool × Plan → Section κ → Bool × Plan
  | (serverMode, plan), .general general => (serverMode || general.serverMode, plan)
  | (serverMode, plan), .tunnel conf _ => (serverMode, plan.configTunnel conf serverMode)

/-- The weights by bandwidth, if every tunnel has one. -/
def recalcWeight (plan : Plan) : Plan :=
  let total : UInt32 := (plan.map Settings.bandwidth).sum
  if ∃ s ∈ plan, s.bandwidth = 0 then plan else plan.map (·.weigh total)

/-- The settings after the sections; the tunnels that have none are dropped. -/
def configured (plan : Plan) (sections : List (Section κ)) : Plan :=
  (sections.foldl configSection (false, plan)).2.filter fun s => sections.any (Section.names s.name)

def load (plan : Plan) (sections : List (Section κ)) : Plan := (plan.configured sections).recalcWeight

end Plan

end Mlvpn
