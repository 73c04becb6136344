import Mathlib.Data.List.Sort
import SpidevProxy.Items
import SpidevProxy.Lib.Dict
import SpidevProxy.Lib.Numeral
import SpidevProxy.Lib.Regex

set_option relaxedAutoImplicit false
set_option autoImplicit false

/-!
# The generator of the register header

`gen_lan80xx_regs_header.py`: the script that reads the register headers of mesa and writes
`lan80xx_regs.h`, with one C enumeration for the MMDs and one for the registers of each MMD.

A `Mesa` is what the script finds under the root it is given. A file is the text that decoding it
gives; that Python turns all line ends into `\n` when it reads a file cannot be seen, because
`splitlines` splits at each of them. The two lines that the written file begins with (its notices)
are a parameter, `Banner`. The text that the script prints when it is called with another number of
arguments is left out, and so is the limit on the digits of an `int` that some versions of Python
have, which makes `parse` fail more often.

## Main definitions

* `Spid.RegsGen.Mesa`, `Spid.RegsGen.Decimals`, `Spid.RegsGen.Banner` — the surroundings.
* `Spid.RegsGen.parse` — the registers of each MMD.
* `Spid.RegsGen.emit` — the text of the header.
* `Spid.RegsGen.main` — the script.
-/

namespace Spid.RegsGen

open Regex Regex.Re

/-! ## Surroundings -/

/-- The characters that `\d` matches, with their values as digits. Beyond those of ASCII they depend
on the version of Unicode. -/
structure Decimals where
  val : Char → Option ℕ
  lt : ∀ c d, val c = some d → d < 10
  ascii : ∀ c, c.isDigit = true → val c = some (c.toNat - 48)

/-- What is found under the root: the text of `lan80xx_regs_util.h` if the file exists, and the
files of the directory `regs` with their names if it is a directory. -/
structure Mesa where
  path : Text
  util : Option Text
  regs : Option (List (Text × Text))

/-- The notices that the header begins with: lines that are comments. -/
structure Banner where
  lines : List Text
  comment : ∀ l ∈ lines, ∃ t, l = '/' :: '/' :: t ∧ '\n' ∉ t ∧ '\\' ∉ t

/-- The exceptions that `parse` raises. -/
inductive PyError : Type
  | fileNotFound (msg : Text)
  | valueError
  deriving DecidableEq

/-! ## Texts -/

/-- The characters at which `str.splitlines` splits. -/
def isLineEnd (c : Char) : Bool := [10, 11, 12, 13, 28, 29, 30, 133, 8232, 8233].contains c.toNat

/-- `str.splitlines` in the middle of a line, of which `cur` has been seen, backwards. The flag
tells that the character before was a carriage return, which has ended a line together with a line
feed that may follow. -/
def splitlinesFrom : Bool → Text → Text → List Text
  | _, cur, [] => if cur = [] then [] else [cur.reverse]
  | cr, cur, c :: s =>
    if cr && c.toNat = 10 then splitlinesFrom false cur s
    else if isLineEnd c then cur.reverse :: splitlinesFrom (c.toNat = 13) [] s
    else splitlinesFrom false (c :: cur) s

/-- `str.splitlines`. -/
def splitlines (s : Text) : List Text := splitlinesFrom false [] s

/-- `\s`. -/
def isSpace (c : Char) : Bool :=
  let n := c.toNat
  (9 ≤ n && n ≤ 13) || (28 ≤ n && n ≤ 32) || (8192 ≤ n && n ≤ 8202) ||
    [133, 160, 5760, 8232, 8233, 8239, 8287, 12288].contains n

/-- `[A-Z0-9_]`. -/
def isNameChar (c : Char) : Bool := c.isUpper || c.isDigit || c.toNat = 95

/-- `int(s, 0)` on a text that is `0x` with hexadecimal digits or a sequence of `\d`. A decimal
number must not begin with a zero unless it is zero. -/
def int (u : Decimals) (s : Text) : Except PyError ℕ :=
  if s.tail.head?.any Numeral.isX then .ok (Numeral.value 16 (s.drop 2))
  else
    let ds := s.map fun c => (u.val c).getD 0
    if ds.head? = some 0 ∧ ds.any (· ≠ 0) = true then .error .valueError
    else .ok (ds.foldl (fun v d => v * 10 + d) 0)

/-- The order of `str`: by code points. -/
def leText : Text → Text → Bool
  | [], _ => true
  | _ :: _, [] => false
  | a :: s, b :: t => a.toNat < b.toNat || (a.toNat = b.toNat && leText s t)

/-- `f"{n:0wX}"`. -/
def hex (w n : ℕ) : Text :=
  let ds := (Nat.toDigits 16 n).map Char.toUpper
  List.replicate (w - ds.length) '0' ++ ds

/-! ## `parse` -/

/-- `0[xX][0-9a-fA-F]+|\d+` -/
def number (u : Decimals) : Re :=
  alt (seq [chr (· = '0'), chr Numeral.isX, plus (Numeral.isDigit 16)]) (plus fun c => (u.val c).isSome)

/-- `REG_RE` -/
def regRe (u : Decimals) : Re :=
  seq [many isSpace, lit "#define".toList, plus isSpace,
    group (cat (lit "LAN80XX_".toList) (plus isNameChar)), plus isSpace,
    lit "(LAN80XX_IOREG(".toList, many isSpace,
    group (cat (lit "MMD_ID_".toList) (plus isNameChar)), many isSpace, lit ",".toList, many isSpace,
    group (chr fun c => c = '0' || c = '1'), many isSpace, lit ",".toList, many isSpace,
    group (number u), many isSpace, lit ")".toList, many isSpace, lit ")".toList, many isSpace, eos]

/-- `MMD_RE` -/
def mmdRe (u : Decimals) : Re :=
  seq [many isSpace, lit "#define".toList, plus isSpace,
    group (cat (lit "MMD_ID_".toList) (plus isNameChar)), plus isSpace, lit "(".toList, many isSpace,
    group (number u), opt (lit "U".toList), many isSpace, lit ")".toList]

/-- `MMD_MAX` -/
def mmdMax : ℕ := 0x20

/-- One line of `lan80xx_regs_util.h`. -/
def mmdLine (u : Decimals) (ids : Dict Text ℕ) (line : Text) : Except PyError (Dict Text ℕ) :=
  match groups? (mmdRe u) line with
  | some [sym, v] => (int u v).map fun n => ids.set sym n
  | _ => .ok ids

/-- `parse_mmd_ids` -/
def parseMmdIds (u : Decimals) (text : Text) : Except PyError (Dict Text ℕ) :=
  (splitlines text).foldlM (mmdLine u) Dict.empty

/-- The registers of each MMD, by offset and name. -/
abbrev ByMmd : Type := Dict ℕ (List (ℕ × Text))

/-- `by_mmd` and what was printed to `stderr`, in the loop of `parse`. -/
structure Parsing where
  byMmd : ByMmd
  err : Text

/-- The message about an MMD that does not exist. -/
def skipping (mmd : ℕ) (name : Text) : Text :=
  "skipping out-of-range mmd 0x".toList ++ hex 0 mmd ++ " (".toList ++ name ++ ")\n".toList

/-- One line of a register header: the body of the loop of `parse`. -/
def regLine (u : Decimals) (ids : Dict Text ℕ) (st : Parsing) (line : Text) : Except PyError Parsing :=
  match groups? (regRe u) line with
  | some [name, sym, _, offset] =>
    match ids.get? sym with
    | none => .ok st
    | some mmd =>
      if mmdMax ≤ mmd then
        .ok { st with err := st.err ++ skipping mmd name }
      else
        (int u offset).map fun addr =>
          { st with byMmd := st.byMmd.set mmd (st.byMmd.getD mmd [] ++ [(addr, name)]) }
  | _ => .ok st

/-- The pattern `regs_lan80xx_*.h`. -/
def isHeader (name : Text) : Bool :=
  "regs_lan80xx_".toList.isPrefixOf name && ".h".toList.isSuffixOf name && 15 ≤ name.length

/-- `sorted(regs_dir.glob("regs_lan80xx_*.h"))` -/
def headers (files : List (Text × Text)) : List (Text × Text) :=
  (files.filter fun f => isHeader f.1).insertionSort fun f f' => leText f.1 f'.1 = true

/-- The order of the registers of an MMD. -/
def leReg (r r' : ℕ × Text) : Bool := r.1 < r'.1 || (r.1 = r'.1 && leText r.2 r'.2)

/-- `regs.sort(key=lambda r: (r[0], r[1]))` -/
def sortRegs (regs : List (ℕ × Text)) : List (ℕ × Text) :=
  regs.insertionSort fun r r' => leReg r r' = true

/-- `parse`: the registers, and what was printed to `stderr`. -/
def parse (u : Decimals) (mesa : Mesa) : Except PyError (ByMmd × Text) :=
  match mesa.util, mesa.regs with
  | some util, some files => do
    let ids ← parseMmdIds u util
    let st ← ((headers files).flatMap fun f => splitlines f.2).foldlM (regLine u ids) ⟨Dict.empty, []⟩
    return (st.byMmd.mapValues sortRegs, st.err)
  | _, _ => throw (.fileNotFound ("mesa layout not found under ".toList ++ mesa.path))

/-! ## `emit` -/

/-- `MMD_INFO` -/
def mmdInfo : List (ℕ × Text × Text) := [
  (0x01, "LINE_PMA".toList, "line PMA/PMD (+ slice / RS-FEC / PCS / SFP)".toList),
  (0x03, "MAC_LINE_PCS".toList, "host+line MAC, line PCS/PCS25G".toList),
  (0x07, "LINE_KR".toList, "line auto-neg / KR".toList),
  (0x08, "MACSEC_A".toList, "MACsec instance A".toList),
  (0x09, "HOST_PMA".toList, "host PMA/PMD (+ packet-BIST / slice / RS-FEC / PCS)".toList),
  (0x0A, "PTP".toList, "1588 TSU".toList),
  (0x0B, "HOST_PCS".toList, "host PCS / PCS25G".toList),
  (0x0F, "HOST_KR".toList, "host auto-neg / KR".toList),
  (0x1E, "GLOBAL".toList, "MCU mailbox, cross-connect, clk, gpio, PTP-global".toList),
  (0x1F, "MACSEC_B".toList, "MACsec instance B".toList)]

/-- The name and the note of an MMD. -/
def mmdEntry (mmd : ℕ) : Text × Text :=
  (mmdInfo.lookup mmd).getD ("MMD_".toList ++ hex 2 mmd, "unclassified".toList)

/-- `mmd_label` -/
def mmdLabel (mmd : ℕ) : Text := (mmdEntry mmd).1

/-- The enumerator of an MMD. -/
def mmdName (mmd : ℕ) : Text := "LAN80XX_MMD_".toList ++ mmdLabel mmd

/-- The line of an MMD; `f"{name:<13}"` fills with blanks. -/
def mmdItem (mmd : ℕ) : Text := List.flatten [
  "    ".toList, mmdName mmd, List.replicate (13 - (mmdLabel mmd).length) ' ', " = 0x".toList,
  hex 2 mmd, ", /* ".toList, (mmdEntry mmd).2, " */".toList]

/-- The first line of the enumeration of an MMD, after a comment. -/
def mmdOpen (mmd : ℕ) : List Text := [
  List.flatten ["/* MMD 0x".toList, hex 2 mmd, " ".toList, mmdLabel mmd,
    " -- register offsets. */".toList],
  List.flatten ["enum lan80xx_reg_".toList, (mmdLabel mmd).map Char.toLower, " \x7b".toList]]

/-- The line of a register. -/
def regItem (name : Text) (addr : ℕ) : Text :=
  "    ".toList ++ (name ++ (" = ".toList ++ (("0x".toList ++ hex 4 addr) ++ ",".toList)))

/-- `seen`, the lines so far and what was printed to `stderr`, in the loops of `emit`. -/
structure Emitting where
  seen : Dict Text (ℕ × ℕ)
  lines : List Text
  err : Text

/-- The warning about a name that was emitted for `prev` and comes again for `cur`. -/
def redefined (name : Text) (prev cur : ℕ × ℕ) : Text :=
  "warning: ".toList ++ name ++ " redefined (0x".toList ++ hex 2 prev.1 ++ ":0x".toList ++
    hex 4 prev.2 ++ " vs 0x".toList ++ hex 2 cur.1 ++ ":0x".toList ++ hex 4 cur.2 ++
    "); keeping first\n".toList

/-- One register: the body of the inner loop of `emit`. -/
def emitReg (mmd : ℕ) (st : Emitting) (r : ℕ × Text) : Emitting :=
  match st.seen.get? r.2 with
  | some prev =>
    if prev ≠ (mmd, r.1) then { st with err := st.err ++ redefined r.2 prev (mmd, r.1) } else st
  | none => { st with seen := st.seen.set r.2 (mmd, r.1), lines := st.lines ++ [regItem r.2 r.1] }

/-- One MMD: the body of the outer loop. -/
def emitMmd (byMmd : ByMmd) (st : Emitting) (mmd : ℕ) : Emitting :=
  let st := (byMmd.getD mmd []).foldl (emitReg mmd) { st with lines := st.lines ++ mmdOpen mmd }
  { st with lines := st.lines ++ ["\x7d;".toList, []] }

/-- `sorted(by_mmd)` -/
def mmds (byMmd : ByMmd) : List ℕ := byMmd.keys.insertionSort fun m m' => Nat.ble m m' = true

/-- The comment behind the notices. -/
def about : List Text := [
  "//".toList,
  "// Auto-generated by gen_lan80xx_regs_header.py from mesa's".toList ++ " regs_lan80xx_*.h.".toList,
  "// Do not edit by hand; re-run the generator instead.".toList,
  "//".toList,
  "// Symbolic enums for the LAN80xx MDIO Manageable Devices (MMDs)".toList,
  "// and their register address offsets. Enumerator values are the".toList,
  "// raw offsets; combine with an mmd to form an SPI address.".toList,
  []]

/-- The macro of the include guard. -/
def guardName : Text := "LAN80XX_REGS_H".toList

/-- The beginning of the include guard. -/
def guardOpen : List Text := ["#ifndef ".toList ++ guardName, "#define ".toList ++ guardName]

/-- The first line of the enumeration of the MMDs, after a comment. -/
def mmdsOpen : List Text := [
  [],
  "/* MDIO Manageable Devices (the mmd field of an SPI instruction). */".toList,
  "typedef enum \x7b".toList]

/-- The end of the enumeration of the MMDs. -/
def mmdsClose : List Text := ["\x7d lan80xx_mmd_t;".toList, []]

/-- The end of the include guard. -/
def guardClose : List Text := ["#endif /* ".toList ++ guardName ++ " */".toList, []]

/-- The loops of `emit`. -/
def emitMmds (banner : Banner) (byMmd : ByMmd) : Emitting :=
  (mmds byMmd).foldl (emitMmd byMmd) ⟨Dict.empty,
    banner.lines ++ about ++ guardOpen ++ mmdsOpen ++ (mmds byMmd).map mmdItem ++ mmdsClose, []⟩

/-- `emit`: the file that is written, and what was printed to `stderr`. -/
def emit (banner : Banner) (byMmd : ByMmd) : Text × Text :=
  let st := emitMmds banner byMmd
  (['\n'].intercalate (st.lines ++ guardClose), st.err)

/-! ## `main` -/

/-- How the script ends: with an exit code, what it has printed to `stderr` and the file that it has
written, or with an exception. -/
inductive Outcome : Type
  | exited (code : ℕ) (err : Text) (wrote : Option Text)
  | raised

/-- The last line that `main` prints. -/
def emitted (byMmd : ByMmd) (out : Text) : Text :=
  "emitted ".toList ++ dec (byMmd.entries.map fun e => e.2.length).sum ++
    " register offsets across ".toList ++ dec byMmd.entries.length ++ " MMDs to ".toList ++ out ++
    "\n".toList

/-- `main`, with the path `out` as its second argument. -/
def main (u : Decimals) (banner : Banner) (mesa : Mesa) (out : Text) : Outcome :=
  match parse u mesa with
  | .error (.fileNotFound msg) => .exited 1 (msg ++ "\n".toList) none
  | .error .valueError => .raised
  | .ok (byMmd, err) =>
    if byMmd.entries = [] then
      .exited 1 (err ++ "no register definitions parsed under ".toList ++ mesa.path ++ "\n".toList)
        none
    else
      .exited 0 (err ++ (emit banner byMmd).2 ++ emitted byMmd out) (some (emit banner byMmd).1)

end Spid.RegsGen
