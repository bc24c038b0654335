import Mlvpn.Daemon.Loop

/-! # The configuration file

`config.c` over the list of entries that `_conf_parseConfig` builds.  A section
is taken up where its name first differs from the one before, and its settings
are looked up in the whole list; what is missing is the default, for a tunnel
often one that the section `general` has set before.  `fatalx`, for a setting
that is mandatory, is `none`.

The settings that are read at the start only, and the names of the device and of
the control sockets, are left out.
-/

namespace Mlvpn

/-- A `config_t` of the list, with its `confObj_t`. -/
structure ConfEntry where
  sectionName : String
  var : String
  val : String
  deriving Repr, DecidableEq

abbrev ConfFile := List ConfEntry

/-- `isspace`, with the vertical tab and the form feed. -/
def isspace (c : Char) : Bool := c.isWhitespace || c.toNat = 11 || c.toNat = 12

/-- `atoi` stored in a `uint32_t`: `strtol`, which saturates, and the low bits of
    the `long`. -/
def atoi (text : String) : UInt32 :=
  let number (digits : List Char) : Nat :=
    (digits.takeWhile Char.isDigit).foldl (fun n digit => 10 * n + (digit.toNat - '0'.toNat)) 0
  match text.toList.dropWhile isspace with
  | '-' :: digits => 0 - UInt32.ofNat (min (number digits) (2 ^ 63))
  | '+' :: digits => UInt32.ofNat (min (number digits) (2 ^ 63 - 1))
  | digits => UInt32.ofNat (min (number digits) (2 ^ 63 - 1))

/-- The settings of the section `general` that tunnels fall back on. -/
structure Defaults where
  serverMode : Bool
  timeout : UInt32
  lossTolerence : UInt32
  latencyTolerence : UInt32
  deriving Repr, DecidableEq

/-- Before the section `general` is read. -/
def Defaults.init : Defaults :=
  { serverMode := false, timeout := 60, lossTolerence := 100, latencyTolerence := 1000 }

/-- What the program asks of its libraries to read a configuration:
    `crypto_set_password` and `pcap_compile`. -/
structure Reader (κ : Type) where
  setPassword : String → κ
  compile : String → Option (List UInt8 → Bool)

/-- A timeout is two seconds at least. -/
def capTimeout (timeout : UInt32) : UInt32 := if timeout < 2 then 2 else timeout

/-- A tolerence has a greatest value. -/
def capTolerence (most tolerence : UInt32) : UInt32 := if tolerence > most then most else tolerence

/-- `strncmp(section, "filters", 7) == 0`. -/
def IsFilters (name : String) : Prop := name.toList.take 7 = "filters".toList

instance (name : String) : Decidable (IsFilters name) := inferInstanceAs (Decidable (_ = _))

/-- The section of a tunnel, by its name. -/
def IsTunnel (name : String) : Prop := name ≠ "general" ∧ ¬ IsFilters name

instance (name : String) : Decidable (IsTunnel name) := inferInstanceAs (Decidable (_ ∧ _))

namespace ConfFile

variable {κ : Type}

/-- `_conf_getValue`, and `_conf_set_str_from_conf` without a default. -/
def getValue (config : ConfFile) (name var : String) : Option String :=
  (config.find? fun entry => entry.sectionName = name ∧ entry.var = var).map ConfEntry.val

/-- `_conf_set_uint_from_conf`. -/
def getUint (config : ConfFile) (name var : String) (default : UInt32) : UInt32 :=
  match config.getValue name var with
  | none => default
  | some text => atoi text

/-- The section `general`, as far as it is for the tunnels.  `default_server_mode`
    is never cleared. -/
def generalDefaults (config : ConfFile) (defaults : Defaults) : Defaults :=
  { serverMode := defaults.serverMode || config.getValue "general" "mode" = some "server"
    timeout := capTimeout (config.getUint "general" "timeout" 60)
    lossTolerence := capTolerence 100 (config.getUint "general" "loss_tolerence" 100)
    latencyTolerence := capTolerence 1000 (config.getUint "general" "latency_tolerence" 1000) }

/-- The section `general`; the mode and the password are mandatory. -/
def readGeneral (reader : Reader κ) (config : ConfFile) : Option (General κ) :=
  (config.getValue "general" "mode").bind fun mode =>
    (config.getValue "general" "password").map fun password =>
      { serverMode := mode = "server"
        key := reader.setPassword password
        cleartextData := config.getUint "general" "cleartext_data" 0 ≠ 0
        reorderBufferSize := config.getUint "general" "reorder_buffer_size" 0 }

/-- The keys of the addresses of a tunnel. -/
def addressKeys : List String := ["bindhost", "bindport", "remotehost", "remoteport"]

/-- The settings of a tunnel. -/
def tunnelConf (config : ConfFile) (defaults : Defaults) (name : String) : TunnelConf :=
  { name := name
    bindaddr := config.getValue name "bindhost"
    bindport := config.getValue name "bindport"
    bindfib := config.getUint name "bindfib" 0
    destaddr := config.getValue name "remotehost"
    destport := config.getValue name "remoteport"
    timeout := (capTimeout (config.getUint name "timeout" defaults.timeout)).toNat
    fallbackOnly := (config.getUint name "fallback_only" 0).toNat
    bandwidth := config.getUint name "bandwidth_upload" 0
    lossTolerence :=
      (capTolerence 100 (config.getUint name "loss_tolerence" defaults.lossTolerence)).toNat
    latencyTolerence :=
      (capTolerence 1000 (config.getUint name "latency_tolerence" defaults.latencyTolerence)).toNat }

/-- The section of a tunnel; a server cannot do without `bindport`, and a client
    without `remotehost` and `remoteport`. -/
def readTunnel (config : ConfFile) (defaults : Defaults) (name : String) : Option TunnelConf :=
  let conf := config.tunnelConf defaults name
  if conf.Incomplete defaults.serverMode then none else some conf

/-- The sections in the order in which the loop of `mlvpn_config` takes them up: a
    section may come more than once. -/
def walk (last : Option String) : ConfFile → List String
  | [] => []
  | entry :: rest =>
      if last = some entry.sectionName then walk last rest
      else entry.sectionName :: walk (some entry.sectionName) rest

/-- The defaults once a section has been read. -/
def nextDefaults (config : ConfFile) (defaults : Defaults) (name : String) : Defaults :=
  if name = "general" then config.generalDefaults defaults else defaults

/-- One section: a tunnel comes with the `flow_id` it gets if it is created. -/
def readSection (reader : Reader κ) (flowId : String → UInt32) (config : ConfFile)
    (defaults : Defaults) (name : String) : Option (List (Section κ)) :=
  if name = "general" then (config.readGeneral reader).map fun general => [.general general]
  else if IsFilters name then some []
  else (config.readTunnel defaults name).map fun conf => [.tunnel conf (flowId name)]

/-- The loop over the sections. -/
def readSections (reader : Reader κ) (flowId : String → UInt32) (config : ConfFile) :
    Defaults → List String → Option (List (Section κ))
  | _, [] => some []
  | defaults, name :: rest =>
      (config.readSection reader flowId defaults name).bind fun first =>
        (config.readSections reader flowId (config.nextDefaults defaults name) rest).map fun later =>
          first ++ later

/-- The filters that compile, each with the name of its tunnel. -/
def readFilters (reader : Reader κ) (config : ConfFile) : List ((List UInt8 → Bool) × String) :=
  config.filterMap fun entry =>
    if IsFilters entry.sectionName then
      (reader.compile entry.val).map fun filter => (filter, entry.var)
    else none

/-- What `mlvpn_config` makes of the entries. -/
def read (reader : Reader κ) (flowId : String → UInt32) (config : ConfFile) : Option (Config κ) :=
  (config.readSections reader flowId .init (config.walk none)).map fun sections =>
    ⟨sections, config.readFilters reader⟩

end ConfFile

/-- The part of `mlvpn_options` that the scripts are given. -/
structure Options where
  ip4 : String
  ip6 : String
  ip4Gateway : String
  ip6Gateway : String
  ip4Routes : String
  ip6Routes : String
  mtu : UInt32
  deriving Repr, DecidableEq

namespace Options

def init : Options :=
  { ip4 := "", ip6 := "", ip4Gateway := "", ip6Gateway := "", ip4Routes := "", ip6Routes := ""
    mtu := 0 }

/-- The options of the section `general`.  An address that is missing clears
    `ip4_gateway`, and not the address. -/
def general (options : Options) (config : ConfFile) : Options :=
  let value := config.getValue "general"
  let options := { options with
    ip4 := strlcpy options.ip4 24 (value "ip4")
    ip4Gateway := if value "ip4" = none then "" else options.ip4Gateway }
  let options := { options with
    ip6 := strlcpy options.ip6 128 (value "ip6")
    ip4Gateway := if value "ip6" = none then "" else options.ip4Gateway }
  let options := { options with
    ip4Gateway := strlcpy "" 16 (value "ip4_gateway")
    ip6Gateway := strlcpy "" 128 (value "ip6_gateway")
    ip4Routes := strlcpy "" 4096 (value "ip4_routes")
    ip6Routes := strlcpy "" 8192 (value "ip6_routes") }
  let mtu := config.getUint "general" "mtu" 1432
  if mtu ≠ 0 then { options with mtu := mtu } else options

/-- The options after `mlvpn_config`. -/
def read (options : Options) (config : ConfFile) : Options :=
  (config.walk none).foldl
    (fun options name => if name = "general" then options.general config else options) options

end Options

end Mlvpn
