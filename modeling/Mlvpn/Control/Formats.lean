import Mlvpn.Config.General
import Mlvpn.Library.Printf

/-! # The texts about the tunnels

`update_process_title`, `mlvpn_control_write_status` and `mlvpn_control_write_metrics` print
the tunnels with `snprintf`, and use what it returns: as an index into `status[32]`, and as the
number of bytes to copy from an array of 1024.  A tunnel has the name of its section, of
whatever length, and a result that is not smaller than the array is used all the same.
-/

namespace Mlvpn

open Library.Machine Library.Printf

/-- `(uint32_t)` of a time or of a measurement. -/
def toUint32 (x : ℚ) : Nat := x.floor.toNat % 2 ^ 32

namespace Status

/-- The sign of a tunnel in the process title. -/
def sign : Status → String
  | .authok => "@"
  | .highLatency | .lossy => "~"
  | .disconnected | .authsent => "!"

/-- The status in the report. -/
def text : Status → String
  | .disconnected => "disconnected"
  | .authsent => "waiting peer"
  | .authok => "connected"
  | .lossy => "lossy link"
  | .highLatency => "slow link"

end Status

namespace Tunnel

/-- What `update_process_title` prints of a tunnel. -/
def titleEntry (t : Tunnel) : List Piece := [.text " ", .string t.status.sign, .string t.name]

/-- `JSON_STATUS_RTUN`; `more` is `LIST_NEXT`. -/
def jsonStatusRtun (t : Tunnel) (more : Bool) : List Piece :=
  [.text "\x7b\n   \"name\": \"", .string t.name,
    .text "\",\n   \"mode\": \"", .string (if t.serverMode then "server" else "client"),
    .text "\",\n   \"bindaddr\": \"", .string t.bindaddr,
    .text "\",\n   \"bindport\": \"", .string t.bindport,
    .text "\",\n   \"destaddr\": \"", .string t.destaddr,
    .text "\",\n   \"destport\": \"", .string t.destport,
    .text "\",\n   \"status\": \"", .string t.status.text,
    .text "\",\n   \"sentpackets\": ", .unsigned t.sentpackets.toNat,
    .text ",\n   \"recvpackets\": ", .unsigned t.recvpackets.toNat,
    .text ",\n   \"sentbytes\": ", .unsigned t.sentbytes.toNat,
    .text ",\n   \"recvbytes\": ", .unsigned t.recvbytes.toNat,
    .text ",\n   \"bandwidth\": ", .unsigned 0,
    .text ",\n   \"srtt\": ", .unsigned (toUint32 t.srtt),
    .text ",\n   \"loss\": ", .unsigned (lossRatio t),
    .text ",\n   \"disconnects\": ", .unsigned t.disconnects.toUInt32.toNat,
    .text ",\n   \"last_packet\": ", .unsigned (toUint32 t.lastActivity),
    .text ",\n   \"timeout\": ", .unsigned (t.timeout % 2 ^ 32),
    .text "\n\x7d", .string (if more then "," else ""), .text "\n"]

/-- A line of the metrics. -/
def metric (t : Tunnel) (key : String) (value : Nat) : List Piece :=
  [.text key, .text "\x7btunnel=\"", .string t.name, .text "\"\x7d ", .unsigned value, .text "\n"]

/-- The lines of the metrics for a tunnel. -/
def metrics (t : Tunnel) : List (List Piece) :=
  [t.metric "disconnected" (if t.status = .disconnected then 1 else 0),
    t.metric "waitingpeer" (if t.status = .authsent then 1 else 0),
    t.metric "connected" (if t.status = .authok then 1 else 0),
    t.metric "lossy" (if t.status = .lossy then 1 else 0),
    t.metric "slow" (if t.status = .highLatency then 1 else 0),
    t.metric "sentpackets" t.sentpackets.toNat,
    t.metric "recvpackets" t.recvpackets.toNat,
    t.metric "sentbytes" t.sentbytes.toNat,
    t.metric "recvbytes" t.recvbytes.toNat,
    t.metric "bandwidth" t.bandwidth.toNat,
    t.metric "srtt" (toUint32 t.srtt),
    t.metric "loss" (lossRatio t),
    t.metric "disconnects" t.disconnects.toUInt32.toNat,
    t.metric "last_packet" (toUint32 t.lastActivity),
    t.metric "timeout" (t.timeout % 2 ^ 32)]

end Tunnel

/-- What the texts say besides the tunnels. -/
structure Report where
  /-- `process_title`, which is null if the title is not to be changed -/
  processTitle : Option String
  progname : String
  /-- The times of `mlvpn_status` -/
  startTime : Int
  lastReload : Int
  /-- The type of the device, and its name -/
  tap : Bool
  devname : String

/-- The elements of a list, and whether there is another one. -/
def withNext {α : Type} : List α → List (α × Bool)
  | [] => []
  | a :: rest => (a, !rest.isEmpty) :: withNext rest

namespace Report

/-- `(uint32_t)` of a `time_t`. -/
def seconds (time : Int) : Nat := (time % 2 ^ 32).toNat

/-- The indices at which `update_process_title` stores a NUL in `status`. -/
def updateProcessTitle (report : Report) (tunnels : List Tunnel) : List Nat :=
  match report.processTitle with
  | none => []
  | some _ => (tunnels.map fun t => (snprintf 31 t.titleEntry).2).filter (· ≠ 0)

/-- `JSON_STATUS_BASE`. -/
def jsonStatusBase (report : Report) : List Piece :=
  [.text "\x7b\"name\": \"", .string report.progname,
    .text "\",\n\"version\": \"", .signed 1, .text ".", .signed 1,
    .text "\",\n\"uptime\": ", .unsigned (seconds report.startTime),
    .text ",\n\"last_reload\": ", .unsigned (seconds report.lastReload),
    .text ",\n\"pid\": ", .signed 0,
    .text ",\n\"tuntap\": \x7b\n   \"type\": \"", .string (if report.tap then "tap" else "tun"),
    .text "\",\n   \"name\": \"", .string report.devname,
    .text "\"\n\x7d,\n\"tunnels\": [\n"]

/-- The texts that `mlvpn_control_write_status` prints into its array. -/
def writeStatus (report : Report) (tunnels : List Tunnel) : List (List Piece) :=
  report.jsonStatusBase :: (withNext tunnels).map fun (t, more) => t.jsonStatusRtun more

/-- The texts that `mlvpn_control_write_metrics` prints into its array. -/
def writeMetrics (report : Report) (tunnels : List Tunnel) : List (List Piece) :=
  [[.text "uptime ", .unsigned (seconds report.startTime), .text "\n"],
    [.text "last_reload ", .unsigned (seconds report.lastReload), .text "\n"],
    [.text "pid ", .signed 0, .text "\n"]] ++ tunnels.flatMap Tunnel.metrics

end Report

/-- The addresses are those of arrays of `MLVPN_MAXHNAMSTR` and `MLVPN_MAXPORTSTR` characters. -/
structure Settings.Addressed (s : Settings) : Prop where
  bindaddr : s.bindaddr.length ≤ 255
  bindport : s.bindport.length ≤ 5
  destaddr : s.destaddr.length ≤ 255
  destport : s.destport.length ≤ 5

namespace Tunnel

variable {t t' : Tunnel}

/-- The characters of the values that the report prints of a tunnel. -/
def reported (t : Tunnel) : Nat :=
  t.name.length + t.bindaddr.length + t.bindport.length + t.destaddr.length + t.destport.length +
    t.status.text.length + digits t.sentpackets.toNat + digits t.recvpackets.toNat +
    digits t.sentbytes.toNat + digits t.recvbytes.toNat + digits (toUint32 t.srtt) +
    digits (lossRatio t) + digits t.disconnects.toUInt32.toNat + digits (toUint32 t.lastActivity) +
    digits (t.timeout % 2 ^ 32)

theorem name_le_reported (t : Tunnel) : t.name.length ≤ t.reported := by
  unfold reported
  linarith

theorem titleEntry_returns (size : Nat) : (snprintf size t.titleEntry).2 = t.name.length + 2 := by
  have sign : t.status.sign.length = 1 := by cases t.status <;> rfl
  have template : templateLength t.titleEntry = 1 := rfl
  rw [snprintf_returns, template]
  simp only [titleEntry, argumentLength, sign]
  omega

theorem jsonStatusRtun_returns (size : Nat) (more : Bool) :
    (snprintf size (t.jsonStatusRtun more)).2 = t.reported + more.toNat + 309 := by
  have template : templateLength (t.jsonStatusRtun more) = 302 := by
    simp only [jsonStatusRtun, templateLength]
    decide +kernel
  have mode : (if t.serverMode then "server" else "client").length = 6 := by split <;> rfl
  have separator : (if more then "," else "").length = more.toNat := by cases more <;> rfl
  rw [snprintf_returns, template]
  simp only [jsonStatusRtun, argumentLength, mode, separator, digits_zero, reported]
  ring

theorem metric_returns (size : Nat) (key : String) (value : Nat) :
    (snprintf size (t.metric key value)).2 = t.name.length + key.length + digits value + 13 := by
  have template : templateLength (t.metric key value) = key.length + 13 := rfl
  rw [snprintf_returns, template]
  simp only [metric, argumentLength]
  omega

theorem lossRatio_le_hundred (t : Tunnel) : lossRatio t ≤ 100 := by
  unfold lossRatio
  have few := List.length_filter_le (fun i => decide (1 &&& (t.seqVect >>> UInt64.ofNat i) = 0))
    (List.range 64)
  rw [List.length_range] at few
  omega

/-- With a short name the values of a tunnel are short, whatever its counters. -/
theorem reported_le (addressed : t.settings.Addressed) : t.reported ≤ t.name.length + 655 := by
  have bindaddr : t.bindaddr.length ≤ 255 := addressed.bindaddr
  have bindport : t.bindport.length ≤ 5 := addressed.bindport
  have destaddr : t.destaddr.length ≤ 255 := addressed.destaddr
  have destport : t.destport.length ≤ 5 := addressed.destport
  have status : t.status.text.length ≤ 12 := by cases t.status <;> decide
  have loss : digits (lossRatio t) ≤ 3 :=
    digits_le (by decide) (Nat.lt_of_le_of_lt (lossRatio_le_hundred t) (by decide))
  have sentpackets := digits_toNat_le t.sentpackets
  have recvpackets := digits_toNat_le t.recvpackets
  have sentbytes := digits_toNat_le t.sentbytes
  have recvbytes := digits_toNat_le t.recvbytes
  have srtt : digits (toUint32 t.srtt) ≤ 10 := digits_mod_le _
  have disconnects : digits t.disconnects.toUInt32.toNat ≤ 10 :=
    digits_le (by decide) (Nat.lt_trans (UInt32.toNat_lt _) (by decide))
  have lastActivity : digits (toUint32 t.lastActivity) ≤ 10 := digits_mod_le _
  have timeout := digits_mod_le t.timeout
  unfold reported
  linarith

/-- A line of the metrics is not long either. -/
theorem metrics_returns_le (t : Tunnel) (size : Nat) :
    ∀ line ∈ t.metrics, (snprintf size line).2 ≤ t.name.length + 45 := by
  have flag : ∀ status : Status, digits (if t.status = status then 1 else 0) ≤ 20 := by
    intro status
    split <;> decide
  have loss : digits (lossRatio t) ≤ 20 :=
    digits_le (by decide) (Nat.lt_of_le_of_lt (lossRatio_le_hundred t) (by decide))
  have short : ∀ n, digits (n % 2 ^ 32) ≤ 20 := fun n => (digits_mod_le n).trans (by decide)
  have unsigned : ∀ n : UInt32, digits n.toNat ≤ 20 := fun n =>
    digits_le (by decide) (Nat.lt_trans n.toNat_lt (by decide))
  have line : ∀ key value, key.length ≤ 12 → digits value ≤ 20 →
      (snprintf size (t.metric key value)).2 ≤ t.name.length + 45 := by
    intro key value named small
    rw [metric_returns]
    omega
  have status := fun key named status => line key _ named (flag status)
  have counter := fun key named (n : UInt64) => line key _ named (digits_toNat_le n)
  have word := fun key named n => line key _ named (short n)
  simp only [metrics, List.forall_mem_cons]
  exact ⟨status _ (by decide) _, status _ (by decide) _, status _ (by decide) _,
    status _ (by decide) _, status _ (by decide) _, counter _ (by decide) _, counter _ (by decide) _,
    counter _ (by decide) _, counter _ (by decide) _, line _ _ (by decide) (unsigned _),
    word _ (by decide) _, line _ _ (by decide) loss, line _ _ (by decide) (unsigned _), word _ (by decide) _,
    word _ (by decide) _, List.forall_mem_nil _⟩

end Tunnel

theorem mem_of_withNext {α : Type} {a : α} {more : Bool} :
    ∀ {l : List α}, (a, more) ∈ withNext l → a ∈ l
  | [], member => by cases member
  | _ :: _, member => by
      cases member with
      | head => exact List.mem_cons_self
      | tail _ later => exact List.mem_cons_of_mem _ (mem_of_withNext later)

theorem exists_withNext {α : Type} {a : α} : ∀ {l : List α}, a ∈ l → ∃ more, (a, more) ∈ withNext l
  | _ :: rest, member => by
      cases member with
      | head => exact ⟨!rest.isEmpty, List.mem_cons_self⟩
      | tail _ later =>
          obtain ⟨more, listed⟩ := exists_withNext later
          exact ⟨more, List.mem_cons_of_mem _ listed⟩

namespace Report

variable {report : Report} {tunnels : List Tunnel}

/-- What `snprintf` returns is an index or a length inside the array. -/
structure Fits (report : Report) (tunnels : List Tunnel) : Prop where
  title : ∀ index ∈ report.updateProcessTitle tunnels, index < 32
  status : ∀ text ∈ report.writeStatus tunnels, (snprintf 1024 text).2 < 1024
  metrics : ∀ text ∈ report.writeMetrics tunnels, (snprintf 1024 text).2 < 1024

/-- The names in the process title have up to 29 characters.  If the title is not to be changed,
    the values of each tunnel have up to 714 together.  The head of the report has room for the
    names of the program and of the device. -/
structure Short (report : Report) (tunnels : List Tunnel) : Prop where
  named : report.processTitle.isSome → ∀ t ∈ tunnels, t.name.length ≤ 29
  valued : report.processTitle = none →
    ∀ entry ∈ withNext tunnels, entry.1.reported + entry.2.toNat ≤ 714
  headed : report.progname.length + report.devname.length + digits (seconds report.startTime) +
    digits (seconds report.lastReload) ≤ 893

theorem digits_seconds_le (time : Int) : digits (seconds time) ≤ 10 := by
  refine digits_le (by decide) ?_
  unfold seconds
  omega

theorem jsonStatusBase_returns (size : Nat) :
    (snprintf size report.jsonStatusBase).2 = report.progname.length + report.devname.length +
      digits (seconds report.startTime) + digits (seconds report.lastReload) + 130 := by
  have template : templateLength report.jsonStatusBase = 124 := by
    simp only [jsonStatusBase, templateLength]
    decide +kernel
  have device : (if report.tap then "tap" else "tun").length = 3 := by split <;> rfl
  have version : digits 1 = 1 := rfl
  rw [snprintf_returns, template]
  simp only [jsonStatusBase, argumentLength, device, Int.natAbs_one, Int.natAbs_zero, version,
    digits_zero, Int.reduceLT, if_false]
  ring

theorem title_iff : (∀ index ∈ report.updateProcessTitle tunnels, index < 32) ↔
    (report.processTitle.isSome → ∀ t ∈ tunnels, t.name.length ≤ 29) := by
  unfold updateProcessTitle
  cases report.processTitle with
  | none => simp
  | some title =>
      simp only [Tunnel.titleEntry_returns, List.mem_filter, List.mem_map, Option.isSome_some,
        forall_const]
      constructor
      · intro inside t member
        have index := inside (t.name.length + 2) ⟨⟨t, member, rfl⟩, by simp⟩
        omega
      · rintro short index ⟨⟨t, member, rfl⟩, _⟩
        have named := short t member
        omega

theorem status_iff : (∀ text ∈ report.writeStatus tunnels, (snprintf 1024 text).2 < 1024) ↔
    (∀ entry ∈ withNext tunnels, entry.1.reported + entry.2.toNat ≤ 714) ∧
      report.progname.length + report.devname.length + digits (seconds report.startTime) +
        digits (seconds report.lastReload) ≤ 893 := by
  simp only [writeStatus, List.forall_mem_cons, List.forall_mem_map, jsonStatusBase_returns,
    Tunnel.jsonStatusRtun_returns]
  rw [and_comm]
  refine and_congr (forall₂_congr fun entry _ => ?_) ?_
  · omega
  · omega

/-- The metrics are shorter than the report. -/
theorem metrics_fit (named : ∀ t ∈ tunnels, t.name.length ≤ 714) :
    ∀ text ∈ report.writeMetrics tunnels, (snprintf 1024 text).2 < 1024 := by
  have head : ∀ (key : String) (time : Int), key.length ≤ 12 →
      (snprintf 1024 [.text key, .unsigned (seconds time), .text "\n"]).2 < 1024 := by
    intro key time short
    have digits := digits_seconds_le time
    have newline : "\n".length = 1 := rfl
    rw [snprintf_returns]
    simp only [templateLength, argumentLength, newline]
    omega
  have tunnel : ∀ text ∈ tunnels.flatMap Tunnel.metrics, (snprintf 1024 text).2 < 1024 := by
    intro text member
    obtain ⟨t, listed, line⟩ := List.mem_flatMap.mp member
    have returned := t.metrics_returns_le 1024 text line
    have name := named t listed
    omega
  simp only [writeMetrics, List.cons_append, List.nil_append, List.forall_mem_cons]
  exact ⟨head _ _ (by decide), head _ _ (by decide), by decide, tunnel⟩

/-- For tunnels with addresses that fit their arrays, whatever the counters. -/
theorem fits_iff (addressed : ∀ t ∈ tunnels, t.settings.Addressed) :
    report.Fits tunnels ↔ report.Short tunnels := by
  constructor
  · rintro ⟨title, status, _⟩
    obtain ⟨valued, headed⟩ := status_iff.mp status
    exact ⟨title_iff.mp title, fun _ => valued, headed⟩
  · rintro ⟨named, valued, headed⟩
    have entries : ∀ entry ∈ withNext tunnels, entry.1.reported + entry.2.toNat ≤ 714 := by
      cases set : report.processTitle with
      | none => exact valued set
      | some title =>
          intro entry member
          have listed := mem_of_withNext member
          have name := named (by rw [set]; rfl) entry.1 listed
          have values := Tunnel.reported_le (addressed entry.1 listed)
          have separator := Bool.toNat_le entry.2
          omega
    refine ⟨title_iff.mpr named, status_iff.mpr ⟨entries, headed⟩, metrics_fit fun t member => ?_⟩
    obtain ⟨more, listed⟩ := exists_withNext member
    have values : t.reported + more.toNat ≤ 714 := entries (t, more) listed
    have name := t.name_le_reported
    omega

end Report

theorem length_strlcpy_le {old : String} {size : Nat} (short : old.length ≤ size - 1)
    (src : Option String) : (strlcpy old size src).length ≤ size - 1 := by
  cases src with
  | none => exact short
  | some src => simp [strlcpy]

namespace Settings

variable {s : Settings}

theorem addressed_create (conf : TunnelConf) (serverMode : Bool) : (create conf serverMode).Addressed :=
  ⟨length_strlcpy_le (by decide) _, length_strlcpy_le (by decide) _, length_strlcpy_le (by decide) _,
    length_strlcpy_le (by decide) _⟩

theorem Addressed.refit (addressed : s.Addressed) (conf : TunnelConf) : (s.refit conf).Addressed :=
  ⟨length_strlcpy_le addressed.bindaddr _, length_strlcpy_le addressed.bindport _,
    length_strlcpy_le addressed.destaddr _, length_strlcpy_le addressed.destport _⟩

theorem Addressed.weigh (addressed : s.Addressed) (total : UInt32) : (s.weigh total).Addressed := by
  unfold Settings.weigh
  split
  next => exact ⟨addressed.bindaddr, addressed.bindport, addressed.destaddr, addressed.destport⟩
  next => exact addressed

end Settings

theorem Tunnel.Act.addressed {t t' : Tunnel} {sends loads : Prop} (act : Act sends loads t t')
    (addressed : t.settings.Addressed) : t'.settings.Addressed := by
  rcases act.settings_cases with same | ⟨_, ⟨conf, serverMode, created⟩ | ⟨conf, again⟩ | ⟨total, weighed⟩⟩
  · rw [same]
    exact addressed
  · rw [created]
    exact Settings.addressed_create conf serverMode
  · rw [again]
    exact addressed.refit conf
  · rw [weighed]
    exact addressed.weigh total

namespace Daemon

variable {κ : Type} {d : Daemon κ}

/-- The tunnels, in the order of the list. -/
def tunnels (d : Daemon κ) : List Tunnel := d.rtuns.map d.tun

theorem run_addressed {host : Host κ} {events : List (ℚ × Event κ)}
    (reached : run step (init host) events = some d) : ∀ j, (d.tun j).settings.Addressed := by
  refine run_preserves (I := fun s => ∀ j, (s.tun j).settings.Addressed) events ?_ ?_ reached
  · exact fun s e _ s' addressed done j =>
      step_tunnel (fun _ _ _ _ _ deed => deed.act.addressed) (addressed j) done
  · intro j
    rw [tun_eq_blank (Nat.not_lt_zero j)]
    exact ⟨by decide, by decide, by decide, by decide⟩

/-- The addresses of the tunnels fit their arrays in every run.  With such addresses, and with
    any counters, the results of `snprintf` fit just when the names are short. -/
theorem formats_fit_iff :
    (∀ (host : Host κ) (events : List (ℚ × Event κ)) (d : Daemon κ),
      run step (init host) events = some d → ∀ t ∈ d.tunnels, t.settings.Addressed) ∧
    ∀ (report : Report) (tunnels : List Tunnel), (∀ t ∈ tunnels, t.settings.Addressed) →
      (report.Fits tunnels ↔ report.Short tunnels) := by
  constructor
  · intro host events d reached t member
    obtain ⟨j, _, rfl⟩ := List.mem_map.mp member
    exact run_addressed reached j
  · exact fun report tunnels addressed => Report.fits_iff addressed

/-- What is printed by a process with a title of its own or without one. -/
def plainReport (processTitle : Option String) : Report :=
  { processTitle := processTitle, progname := "mlvpn", startTime := 0, lastReload := 0, tap := false
    devname := "mlvpn0" }

/-- A name of 29 characters. -/
theorem formats_fit_named :
    ∃ d ∈ run step (init ⟨.little, plainBox, ()⟩) (serverRun [serverConf "aaaaaaaaaaaaaaaaaaaaaaaaaaaaa" 0]),
      d.rtuns = [0] ∧ (plainReport (some "mlvpn")).Fits d.tunnels := by
  obtain ⟨d, reached, listed, named⟩ :
      ∃ d ∈ run step (init ⟨.little, plainBox, ()⟩)
          (serverRun [serverConf "aaaaaaaaaaaaaaaaaaaaaaaaaaaaa" 0]),
        d.rtuns = [0] ∧ ∀ t ∈ d.tunnels, t.name.length ≤ 29 := by decide +kernel
  obtain ⟨addressed, fits⟩ := formats_fit_iff (κ := Unit)
  exact ⟨d, reached, listed, (fits _ _ (addressed _ _ d reached)).mpr
    ⟨fun _ => named, nofun, by decide⟩⟩

/-- A file with a name of 30 characters is loaded, and the NUL is stored behind the end of
    `status`. -/
theorem long_name_overruns :
    ∃ result ∈ Process.startText "[aaaaaaaaaaaaaaaaaaaaaaaaaaaaaa]\nremotehost = h\nremoteport = 1\n",
      32 ∈ (plainReport (some "mlvpn")).updateProcessTitle result.2.daemon.tunnels := by
  decide +kernel

end Daemon

end Mlvpn
