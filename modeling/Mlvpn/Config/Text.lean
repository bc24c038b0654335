import Mlvpn.Config.File
import Mlvpn.Library.Machine
import Mathlib.Data.List.DropRight

/-! # The text of a configuration file

`configlib.c`: a line loses its comment, is tried as the header of a section and then
read as a setting.  A byte is the character of that code, so that a string ends before
its first NUL.  What an `int` cannot hold is undefined, which is `none` here.
-/

namespace Mlvpn

open Library.Machine

/-- What a line is reported for. -/
inductive ConfError where
  | nestedSection
  | strayTerminator
  | noTerminator
  | leadingEquals
  | secondEquals
  | notAscii
  | noValue
  | noSection
  deriving Repr, DecidableEq

/-- The text of a report; `%d` takes the number of the line for an `int`. -/
def ConfError.message (linenum : UInt32) (error : ConfError) : String :=
  let near := "error near line " ++ toString ((linenum.toNat : Int).bmod (2 ^ 32)) ++ ": "
  match error with
  | .nestedSection => "parse " ++ near ++ "'[' followed by another '['"
  | .strayTerminator => "parse " ++ near ++ "']' found, without '['"
  | .noTerminator => "parse " ++ near ++ "ending ']' not found"
  | .leadingEquals => "parse " ++ near ++ "line should not start with '='"
  | .secondEquals => "parse " ++ near ++ "two '=' are not permitted"
  | .notAscii => "parse " ++ near ++ "variable/value must be ASCII"
  | .noValue => "parse " ++ near ++ "no value"
  | .noSection => near ++ "variables should always been defined in a section"

/-- The string that an array of characters holds. -/
def cString (chars : List Char) : List Char := chars.takeWhile (· ≠ '\x00')

def isascii (c : Char) : Bool := c.toNat < 128

/-- The loop of `_conf_strip_comment`. -/
def stripFrom : Bool → List Char → List Char
  | _, [] => []
  | quote, c :: rest =>
      if c = '\x22' then c :: stripFrom (!quote) rest
      else if c = '#' ∧ quote = false then []
      else c :: stripFrom quote rest

/-- `_conf_strip_comment`. -/
def stripComment (line : List Char) : Option (List Char) :=
  if stripFrom false line = [] then none else some (stripFrom false line)

/-- The loop of `_conf_get_section`, with the name once there is one. -/
def sectionFrom : Option (List Char) → List Char → Except ConfError (Option (List Char))
  | name, [] =>
      match name with
      | none => .ok none
      | some _ => .error .noTerminator
  | name, c :: rest =>
      if c = '[' then
        match name with
        | none => sectionFrom (some []) rest
        | some _ => .error .nestedSection
      else if c = ']' then
        match name with
        | none => .error .strayTerminator
        | some name => .ok (some name)
      else sectionFrom (name.map (· ++ [c])) rest

/-- `_conf_get_section`. -/
def getSection (line : List Char) : Except ConfError (Option (List Char)) := sectionFrom none line

/-- The variables of `_conf_parseLine`: `buf` up to `j`, and the variable once there is one. -/
structure LineParser where
  quote : Bool
  space : Bool
  buf : List Char
  var : Option (List Char)
  deriving Repr, DecidableEq

namespace LineParser

def init : LineParser := ⟨false, false, [], none⟩

/-- Strips ending spaces; the first character stays. -/
def stripEnd : List Char → List Char
  | [] => []
  | c :: rest => c :: rest.rdropWhile (· = ' ')

/-- One character of a line. -/
def parseChar (p : LineParser) (c : Char) : Except ConfError LineParser :=
  if c = '\x22' then .ok { p with quote := !p.quote }
  else if c = '=' then
    if p.quote then .ok { p with buf := p.buf ++ [c] }
    else if p.buf = [] then .error .leadingEquals
    else if p.var ≠ none then .error .secondEquals
    else .ok { p with var := some (stripEnd p.buf), buf := [] }
  else
    let p :=
      { p with
        space := if c = ' ' ∧ p.space = false then true else if c ≠ ' ' then false else p.space }
    if p.space ∧ ¬ p.quote then .ok p
    else if p.space ∧ p.buf = [] then .ok p
    else if ¬ isascii c then .error .notAscii
    else .ok { p with buf := p.buf ++ [c] }

/-- How far the start of a value is moved, in at most `rounds` rounds: the index moves
    along with the pointer. -/
def leading (val : List Char) : Nat → Nat → Nat
  | 0, k => k
  | rounds + 1, k => if val[2 * k]? = some ' ' then leading val rounds (k + 1) else k

/-- The end of `_conf_parseLine`. -/
def finish (p : LineParser) : Except ConfError (Option (List Char × List Char)) :=
  match p.var with
  | none => .ok none
  | some var =>
      if p.buf = [] then .ok none
      else
        let val := stripEnd p.buf
        let val := val.drop (leading val (val.length - 1) 0)
        if val = [] then .error .noValue else .ok (some (var, val))

end LineParser

/-- `_conf_parseLine`. -/
def parseLine (line : List Char) : Except ConfError (Option (List Char × List Char)) :=
  if line = [] then .ok none
  else (line.foldlM LineParser.parseChar .init).bind LineParser.finish

/-- `_conf_setValue`: the node that the list begins with is filled first. -/
def ConfFile.setValue (config : ConfFile) (name : List Char) (obj : List Char × List Char) : ConfFile :=
  config ++ [⟨.ofList (cString name), .ofList obj.1, .ofList obj.2⟩]

/-- The variables of `_conf_parseConfig`: `buf` up to `i`, and what has been reported. -/
structure ConfParser where
  bufsize : Int
  buf : List Char
  linenum : UInt32
  name : Option (List Char)
  config : ConfFile
  log : List String

namespace ConfParser

def init : ConfParser :=
  { bufsize := 256, buf := [], linenum := 0, name := none, config := [], log := [] }

def warn (s : ConfParser) (error : ConfError) : ConfParser :=
  { s with log := s.log ++ [error.message s.linenum] }

/-- A line that is no header. -/
def setting (s : ConfParser) (line : List Char) : ConfParser :=
  match parseLine (cString line) with
  | .error error => s.warn error
  | .ok none => s
  | .ok (some obj) =>
      match s.name with
      | none => s.warn .noSection
      | some name => { s with config := s.config.setValue name obj }

/-- A line without its comment, followed by zeros as far as the comment went. -/
def readLine (s : ConfParser) : ConfParser :=
  match stripComment s.buf with
  | none => s
  | some line =>
      match getSection (line ++ List.replicate (s.buf.length - line.length) '\x00') with
      | .ok (some name) => { s with name := some name }
      | .ok none => s.setting line
      | .error error => (s.warn error).setting line

/-- The end of a line. -/
def endLine (s : ConfParser) : ConfParser :=
  { ({ s with linenum := s.linenum + 1 } : ConfParser).readLine with buf := [] }

/-- The buffer grows before it is full. -/
def reserve (s : ConfParser) : Option ConfParser :=
  if (s.buf.length : Int) + 64 ≤ 2 ^ 31 - 1 then
    if s.bufsize < s.buf.length + 64 then
      if s.bufsize + 64 ≤ 2 ^ 31 - 1 then some { s with bufsize := s.bufsize + 64 } else none
    else some s
  else none

/-- A round of the loop of `_conf_parseConfig`. -/
def readChar (s : ConfParser) (c : Char) : Option ConfParser :=
  s.reserve.map fun s =>
    if c = '\r' then s
    else if c = '\n' then s.endLine
    else { s with buf := s.buf ++ [c] }

end ConfParser

/-- `_conf_parseConfig`, given what there is to read and whether an error ends it: the
    list, or `NULL`, and the reports. -/
def parseConfig (content : List Char) (failed : Bool) : Option (Option ConfFile × List String) :=
  (run ConfParser.readChar .init content).map fun s =>
    if failed then (none, s.log ++ ["read error"]) else (some s.config, s.log)

end Mlvpn
