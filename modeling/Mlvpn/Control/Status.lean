import Mlvpn.Control.Formats
import Mlvpn.Library.Json

/-! # The status report as JSON

`mlvpn_control_write_status` prints names and addresses between quotes as they are.  The
report is the JSON text of its tunnels just when none of them holds a character that JSON
wants escaped.
-/

namespace Mlvpn

open Library.Machine Library.Printf Library.Json

/-- Every character of a text may stand between quotes. -/
def Quotable (s : String) : Prop := ∀ c ∈ s.toList, Plain c

instance (s : String) : Decidable (Quotable s) := inferInstanceAs (Decidable (∀ c ∈ s.toList, Plain c))

theorem scans_string {tokens : List Token} {value : String} (quotable : Quotable value) :
    Scans ⟨tokens, .string []⟩ (Piece.string value).render ⟨tokens, .string value.toList⟩ := by
  exact scans_plain [] value.toList quotable

/-- The tokens up to the value of the next member. -/
def nextMember (tokens : List Token) (key : String) : List Token :=
  tokens ++ [Token.comma] ++ [Token.str key.toList] ++ [Token.colon]

/-- From a string to the next member, which is a string. -/
theorem scans_stringString {tokens : List Token} {read : List Char} {text value : String} (key : String)
    {rest : List Piece} {s : Scanner}
    (between : Scans ⟨tokens, .string read⟩ (Piece.text text).render
      ⟨nextMember (tokens ++ [.str read]) key, .string []⟩)
    (quotable : Quotable value)
    (onward : Scans ⟨nextMember (tokens ++ [.str read]) key,
      .string value.toList⟩ (format rest) s) :
    Scans ⟨tokens, .string read⟩ (format (.text text :: .string value :: rest)) s :=
  .piece between (.piece (scans_string quotable) onward)

/-- From a string to the next member, which is a number. -/
theorem scans_stringNumber {tokens : List Token} {read : List Char} {text : String} (key : String)
    {n : Nat} {rest : List Piece} {s : Scanner}
    (between : Scans ⟨tokens, .string read⟩ (Piece.text text).render
      ⟨nextMember (tokens ++ [.str read]) key, .between⟩)
    (onward : Scans ⟨nextMember (tokens ++ [.str read]) key, .number n⟩
      (format rest) s) :
    Scans ⟨tokens, .string read⟩ (format (.text text :: .unsigned n :: rest)) s :=
  .piece between (.piece (scans_digits _ n) onward)

/-- From a number to the next member, which is a number. -/
theorem scans_numberNumber {tokens : List Token} {m : Nat} {text : String} (key : String) {n : Nat}
    {rest : List Piece} {s : Scanner}
    (between : Scans ⟨tokens, .number m⟩ (Piece.text text).render
      ⟨nextMember (tokens ++ [.num m]) key, .between⟩)
    (onward : Scans ⟨nextMember (tokens ++ [.num m]) key, .number n⟩
      (format rest) s) :
    Scans ⟨tokens, .number m⟩ (format (.text text :: .unsigned n :: rest)) s :=
  .piece between (.piece (scans_digits _ n) onward)

namespace Tunnel

variable {t : Tunnel}

/-- The strings of a tunnel that come from the configuration. -/
def configured (t : Tunnel) : List String := [t.name, t.bindaddr, t.bindport, t.destaddr, t.destport]

/-- What the report says of a tunnel. -/
def statusValue (t : Tunnel) : Value :=
  .obj
    [("name".toList, .str t.name.toList),
      ("mode".toList, .str (if t.serverMode then "server" else "client").toList),
      ("bindaddr".toList, .str t.bindaddr.toList),
      ("bindport".toList, .str t.bindport.toList),
      ("destaddr".toList, .str t.destaddr.toList),
      ("destport".toList, .str t.destport.toList),
      ("status".toList, .str t.status.text.toList),
      ("sentpackets".toList, .num t.sentpackets.toNat),
      ("recvpackets".toList, .num t.recvpackets.toNat),
      ("sentbytes".toList, .num t.sentbytes.toNat),
      ("recvbytes".toList, .num t.recvbytes.toNat),
      ("bandwidth".toList, .num 0),
      ("srtt".toList, .num (toUint32 t.srtt)),
      ("loss".toList, .num (lossRatio t)),
      ("disconnects".toList, .num t.disconnects.toUInt32.toNat),
      ("last_packet".toList, .num (toUint32 t.lastActivity)),
      ("timeout".toList, .num (t.timeout % 2 ^ 32))]

theorem jsonStatusRtun_scans (quotable : ∀ s ∈ t.configured, Quotable s) (more : Bool)
    (tokens : List Token) :
    Scans ⟨tokens, .between⟩ (format (t.jsonStatusRtun more))
      ⟨tokens ++ t.statusValue.tokens ++ (if more then [.comma] else []), .between⟩ := by
  simp only [configured, List.forall_mem_cons] at quotable
  obtain ⟨name, bindaddr, bindport, destaddr, destport, _⟩ := quotable
  have mode : Quotable (if t.serverMode then "server" else "client") := by
    cases t.serverMode <;> decide
  have status : Quotable t.status.text := by cases t.status <;> decide
  unfold jsonStatusRtun
  have opened : Scans ⟨tokens, .between⟩ (Piece.text "\x7b\n   \"name\": \"").render
      ⟨tokens ++ [Token.lbrace] ++ [Token.str "name".toList] ++ [Token.colon], .string []⟩ := rfl
  refine .piece opened (.piece (scans_string name) ?_)
  refine scans_stringString "mode" rfl mode ?_
  refine scans_stringString "bindaddr" rfl bindaddr ?_
  refine scans_stringString "bindport" rfl bindport ?_
  refine scans_stringString "destaddr" rfl destaddr ?_
  refine scans_stringString "destport" rfl destport ?_
  refine scans_stringString "status" rfl status ?_
  refine scans_stringNumber "sentpackets" rfl ?_
  refine scans_numberNumber "recvpackets" rfl ?_
  refine scans_numberNumber "sentbytes" rfl ?_
  refine scans_numberNumber "recvbytes" rfl ?_
  refine scans_numberNumber "bandwidth" rfl ?_
  refine scans_numberNumber "srtt" rfl ?_
  refine scans_numberNumber "loss" rfl ?_
  refine scans_numberNumber "disconnects" rfl ?_
  refine scans_numberNumber "last_packet" rfl ?_
  refine scans_numberNumber "timeout" rfl ?_
  have closed (before : List Token) (m : Nat) : Scans ⟨before, .number m⟩
      (format [.text "\n\x7d", .string (if more then "," else ""), .text "\n"])
      ⟨before ++ [Token.num m] ++ [Token.rbrace] ++ (if more then [Token.comma] else []),
        .between⟩ := by
    cases more
    · rw [if_neg Bool.false_ne_true, if_neg Bool.false_ne_true, List.append_nil]
      rfl
    · rfl
  refine (closed _ _).trans ?_
  simp [nextMember, statusValue, Value.tokens, membersTokens, memberTokens, moreMembers]

end Tunnel

namespace Report

variable {report : Report} {tunnels : List Tunnel}

/-- What the report says before its tunnels. -/
def headMembers (report : Report) : List (List Char × Value) :=
  [("name".toList, .str report.progname.toList),
    ("version".toList, .str "1.1".toList),
    ("uptime".toList, .num (seconds report.startTime)),
    ("last_reload".toList, .num (seconds report.lastReload)),
    ("pid".toList, .num 0),
    ("tuntap".toList, .obj
      [("type".toList, .str (if report.tap then "tap" else "tun").toList),
        ("name".toList, .str report.devname.toList)])]

/-- What the report says. -/
def statusValue (report : Report) (tunnels : List Tunnel) : Value :=
  .obj (report.headMembers ++ [("tunnels".toList, .arr (tunnels.map Tunnel.statusValue))])

/-- The tokens of the report up to its tunnels. -/
def headTokens (report : Report) : List Token :=
  .lbrace :: nextMember (membersTokens report.headMembers) "tunnels" ++ [.lbracket]

theorem jsonStatusBase_scans (progname : Quotable report.progname) (devname : Quotable report.devname) :
    Scans ⟨[], .between⟩ (format report.jsonStatusBase) ⟨report.headTokens, .between⟩ := by
  have type : Quotable (if report.tap then "tap" else "tun") := by cases report.tap <;> decide
  unfold jsonStatusBase
  have opened : Scans ⟨[], .between⟩ (Piece.text "\x7b\"name\": \"").render
      ⟨[.lbrace, .str "name".toList, .colon], .string []⟩ := rfl
  refine .piece opened (.piece (scans_string progname) ?_)
  have version (tokens : List Token) (read : List Char) : Scans ⟨tokens, .string read⟩
      (format [.text "\",\n\"version\": \"", .signed 1, .text ".", .signed 1])
      ⟨nextMember (tokens ++ [.str read]) "version", .string "1.1".toList⟩ := rfl
  refine .pieces (version _ _) ?_
  refine scans_stringNumber "uptime" rfl ?_
  refine scans_numberNumber "last_reload" rfl ?_
  have pid (tokens : List Token) (n : Nat) : Scans ⟨tokens, .number n⟩
      (format [.text ",\n\"pid\": ", .signed 0,
        .text ",\n\"tuntap\": \x7b\n   \"type\": \""])
      ⟨nextMember (nextMember (tokens ++ [Token.num n]) "pid" ++ [Token.num 0]) "tuntap" ++
        [Token.lbrace] ++ [Token.str "type".toList] ++ [Token.colon], .string []⟩ := rfl
  refine .pieces (pid _ _) (.piece (scans_string type) ?_)
  refine scans_stringString "name" rfl devname ?_
  have tunnels (tokens : List Token) (read : List Char) : Scans ⟨tokens, .string read⟩
      (format [.text "\"\n\x7d,\n\"tunnels\": [\n"])
      ⟨nextMember (tokens ++ [Token.str read] ++ [Token.rbrace]) "tunnels" ++ [Token.lbracket],
        .between⟩ := rfl
  refine (tunnels _ _).trans ?_
  simp [headTokens, headMembers, nextMember, Value.tokens, membersTokens, memberTokens, moreMembers]

theorem tunnels_scans (tunnels : List Tunnel)
    (quotable : ∀ t ∈ tunnels, ∀ s ∈ t.configured, Quotable s) (tokens : List Token) :
    Scans ⟨tokens, .between⟩
      ((withNext tunnels).flatMap fun entry => format (entry.1.jsonStatusRtun entry.2))
      ⟨tokens ++ itemsTokens (tunnels.map Tunnel.statusValue), .between⟩ := by
  induction tunnels generalizing tokens with
  | nil => exact Scans.trans rfl (by rw [List.map_nil, itemsTokens, List.append_nil])
  | cons t rest ih =>
      have first := Tunnel.jsonStatusRtun_scans (quotable t List.mem_cons_self) (!rest.isEmpty) tokens
      refine (first.append (ih (fun t member => quotable t (List.mem_cons_of_mem _ member)) _)).trans ?_
      cases rest with
      | nil => simp [itemsTokens, moreItems]
      | cons t' rest => simp [itemsTokens, moreItems]

/-- What `mlvpn_control_write_status` hands to `mlvpn_control_write`. -/
def statusText (report : Report) (tunnels : List Tunnel) : List Char :=
  (report.writeStatus tunnels).flatMap (fun text => (snprintf 1024 text).1) ++ "]\x7d\n".toList

/-- The names and the addresses in the report may stand between quotes. -/
structure Printable (report : Report) (tunnels : List Tunnel) : Prop where
  progname : Quotable report.progname
  devname : Quotable report.devname
  tunnels : ∀ t ∈ tunnels, ∀ s ∈ t.configured, Quotable s

/-- Texts that fit the array are printed whole. -/
theorem statusText_eq (fits : ∀ text ∈ report.writeStatus tunnels, (snprintf 1024 text).2 < 1024) :
    report.statusText tunnels = format report.jsonStatusBase ++
      (((withNext tunnels).flatMap fun entry => format (entry.1.jsonStatusRtun entry.2)) ++
        "]\x7d\n".toList) := by
  have whole : ∀ text ∈ report.writeStatus tunnels, (snprintf 1024 text).1 = format text := by
    intro text member
    have short : (format text).length < 1024 := fits text member
    exact List.take_of_length_le (by omega)
  rw [statusText, List.flatMap_congr whole, writeStatus, List.flatMap_cons, List.flatMap_map,
    List.append_assoc]

theorem statusValue_tokens : (report.statusValue tunnels).tokens =
    report.headTokens ++ itemsTokens (tunnels.map Tunnel.statusValue) ++ [.rbracket] ++ [.rbrace] := by
  simp [statusValue, headTokens, headMembers, nextMember, Value.tokens, membersTokens, memberTokens,
    moreMembers]

theorem Printable.reads (printable : report.Printable tunnels)
    (fits : ∀ text ∈ report.writeStatus tunnels, (snprintf 1024 text).2 < 1024) :
    Reads (report.statusText tunnels) (report.statusValue tunnels) := by
  have head := jsonStatusBase_scans printable.progname printable.devname
  have body := tunnels_scans tunnels printable.tunnels report.headTokens
  have closed (tokens : List Token) : Scans ⟨tokens, .between⟩ "]\x7d\n".toList
    ⟨tokens ++ [Token.rbracket] ++ [Token.rbrace], .between⟩ := rfl
  have scanned := head.append (body.append (closed _))
  rw [← statusText_eq fits, ← statusValue_tokens] at scanned
  rw [Reads, tokenize, scanned]
  rfl

/-- A report that reads back as its tunnels has nothing in it that should be escaped. -/
theorem printable_of_reads (reads : Reads (report.statusText tunnels) (report.statusValue tunnels)) :
    report.Printable tunnels := by
  have printed (s : String) (member : .str s.toList ∈ (report.statusValue tunnels).tokens) : Quotable s :=
    tokenize_plain reads member
  refine ⟨printed _ ?_, printed _ ?_, fun t listed s configured => printed s ?_⟩
  · simp [statusValue, headMembers, Value.tokens, membersTokens, memberTokens]
  · simp [statusValue, headMembers, Value.tokens, membersTokens, memberTokens, moreMembers]
  · rw [statusValue_tokens]
    have inside : Token.str s.toList ∈ t.statusValue.tokens := by
      simp only [Tunnel.configured, List.mem_cons, List.not_mem_nil, or_false] at configured
      rcases configured with rfl | rfl | rfl | rfl | rfl <;>
        simp [Tunnel.statusValue, Value.tokens, membersTokens, memberTokens, moreMembers]
    simp [mem_itemsTokens (List.mem_map_of_mem listed) inside]

end Report

namespace Daemon

variable {κ : Type}

/-- In every state, a report whose texts fit their array is the JSON text of the tunnels, and of
    nothing else, just when no name and no address has a character that JSON wants escaped. -/
theorem status_reads_iff (d : Daemon κ) {report : Report}
    (fits : ∀ text ∈ report.writeStatus d.tunnels, (snprintf 1024 text).2 < 1024) :
    (∀ value, Reads (report.statusText d.tunnels) value ↔ value = report.statusValue d.tunnels) ↔
      report.Printable d.tunnels := by
  constructor
  · intro only
    exact Report.printable_of_reads ((only _).mpr rfl)
  · intro printable value
    have reads := printable.reads fits
    constructor
    · exact fun other => other.unique reads
    · rintro rfl
      exact reads

/-- A server with one tunnel. -/
theorem status_reads_server :
    ∃ d ∈ run step (init ⟨.little, plainBox, ()⟩) (serverRun [serverConf "adsl1" 0]),
      d.rtuns = [0] ∧ ∀ value, Reads ((plainReport none).statusText d.tunnels) value ↔
        value = (plainReport none).statusValue d.tunnels := by
  obtain ⟨d, reached, listed, printable, valued⟩ :
      ∃ d ∈ run step (init ⟨.little, plainBox, ()⟩) (serverRun [serverConf "adsl1" 0]),
        d.rtuns = [0] ∧ (∀ t ∈ d.tunnels, ∀ s ∈ t.configured, Quotable s) ∧
          ∀ entry ∈ withNext d.tunnels, entry.1.reported + entry.2.toNat ≤ 714 := by decide +kernel
  have fits : ∀ text ∈ (plainReport none).writeStatus d.tunnels, (snprintf 1024 text).2 < 1024 :=
    Report.status_iff.mpr ⟨valued, by decide⟩
  exact ⟨d, reached, listed, (status_reads_iff d fits).mpr ⟨by decide, by decide, printable⟩⟩

end Daemon

/-- The answer to an unknown command has its text between apostrophes and is not JSON. -/
example : tokenize "\x7b\"error\": 'unknown command'\x7d\n".toList = none := rfl

end Mlvpn
