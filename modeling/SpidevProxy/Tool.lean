import SpidevProxy.Cli
import SpidevProxy.ParseUint
import SpidevProxy.Lib.Double

set_option relaxedAutoImplicit false
set_option autoImplicit false

/-!
# The commands of the tool

`xfer` and `main` of `spiproxy_cli.c` with all their branches: the option loop, the eight commands and
what they print. A command is a program on the state of the process. It returns its exit status, and
it leaves early where `main` returns from the middle of a branch.

`getopt` is libc's: `main` gets the options as `getopt` returns them, and the arguments that are left.
So are the socket calls, the clock, `calloc` and `qsort`, whose results are those of a `World`. A
message of `perror` ends in the text of `errno`, which comes with the error.

## Main definitions

* `Spid.Cli.World`, `Spid.Cli.Tool`, `Spid.Cli.Prog` — what the system calls return, the state of the
  process, and the programs on it.
* `Spid.Cli.Exchange` — one call of `send` with what came of it.
* `Spid.Cli.arg`, `Spid.Cli.readOp`, `Spid.Cli.writeOp` — a numeric argument, and the operations of the
  `read` and `write` commands.
* `Spid.Cli.xfer`, `Spid.Cli.main` — the functions.
-/

namespace Spid.Cli

open Bytes

/-! ## The process -/

/-- What the system calls of a process return, call by call. A call that fails comes with the text of
its error. -/
structure World where
  connect : ℕ → Option Text
  send : ℕ → Option Text
  /-- The datagram, empty at the end of the connection. -/
  recv : ℕ → Except Text (List UInt8)
  /-- `now_us`. -/
  clock : ℕ → UInt64
  calloc : Option Text
  /-- `qsort` with `cmp_u32`. -/
  qsort : List UInt32 → List UInt32

/-- A call of `send` by `xfer`: the request, what `recv` returned if it was reached and did not fail,
and the return value of `xfer`, `none` for `-1`. -/
structure Exchange where
  type : MsgType
  flags : UInt16
  body : List UInt8
  msg : List UInt8
  reply : Option (List UInt8)
  ret : Option UInt16
  deriving DecidableEq

/-- The state of the process: its static variables, the system calls so far, the exchanges, and what
it has printed. -/
structure Tool where
  sock : Text
  connected : Bool
  seq : UInt32
  nConnect : ℕ
  nSend : ℕ
  nRecv : ℕ
  nClock : ℕ
  log : List Exchange
  out : Text
  err : Text

/-- The process when it starts. -/
def Tool.start : Tool := ⟨"/run/lan80xx-spid.sock".toList, false, 0, 0, 0, 0, 0, [], [], []⟩

/-- How a process leaves early: it exits, it uses a byte that nothing was stored in, or it has not
come to an end yet. -/
inductive How
  | exited (code : ℕ)
  | unset
  | running
  deriving DecidableEq

/-- A program that works on the state of the process. -/
abbrev Prog (α : Type) : Type := EStateM How Tool α

/-- `printf`, `fputs` to `stdout`. -/
def print (s : Text) : Prog Unit := modifyGet fun t => ((), { t with out := t.out ++ s })

/-- `fprintf(stderr, …)`. -/
def eprint (s : Text) : Prog Unit := modifyGet fun t => ((), { t with err := t.err ++ s })

/-- `perror`. -/
def perror (s e : Text) : Prog Unit := eprint (s ++ ": ".toList ++ e ++ "\n".toList)

/-- A message and `return EXIT_FAILURE`. -/
def die {α : Type} (s : Text) : Prog α := do
  eprint s
  throw (.exited 1)

/-- A numeric argument, or what `parse_uint` says about it. -/
def arg (s : CString) (base : Base) (lo hi : UInt64) : Except Text UInt64 :=
  let r := parseUint s base lo hi 0
  if r.ok then .ok r.out else .error r.err

/-- `if (!parse_uint(…)) return EXIT_FAILURE`, for one argument or several. -/
def orDie {α : Type} : Except Text α → Prog α
  | .ok v => pure v
  | .error e => die e

section

variable (w : World)

/-- `now_us`. -/
def nowUs : Prog UInt64 := modifyGet fun t => (w.clock t.nClock, { t with nClock := t.nClock + 1 })

/-! ## `xfer` -/

/-- `connect`. -/
def callConnect : Prog (Option Text) :=
  modifyGet fun t => (w.connect t.nConnect,
    { t with nConnect := t.nConnect + 1, connected := (w.connect t.nConnect).isNone })

/-- `send`. -/
def callSend : Prog (Option Text) :=
  modifyGet fun t => (w.send t.nSend, { t with nSend := t.nSend + 1 })

/-- `recv`. -/
def callRecv : Prog (Except Text (List UInt8)) :=
  modifyGet fun t => (w.recv t.nRecv, { t with nRecv := t.nRecv + 1 })

/-- `++seq`. -/
def nextSeq : Prog UInt32 := modifyGet fun t => (t.seq + 1, { t with seq := t.seq + 1 })

/-- The exchange is over. -/
def record (x : Exchange) : Prog Unit := modifyGet fun t => ((), { t with log := t.log ++ [x] })

/-- The first part of `xfer`: the socket is connected when it is needed first, and again after a
failure. -/
def dial : Prog Bool := do
  let t ← get
  if t.connected then pure true
  else
    match ← callConnect w with
    | some e =>
      perror t.sock e
      pure false
    | none => pure true

/-- The end of `xfer`, from the datagram `d` on that answers the request of `x`. -/
def accept (x : Exchange) (seq : UInt32) (resp : Option RespBuf) (d : List UInt8) :
    Prog (Option UInt16 × Option RespBuf) :=
  match parseResp (d.take (hdrSize + msgMax)) seq x.type.code resp with
  | none => throw .unset
  | some (.error e, resp) => do
    record { x with reply := some d }
    eprint e.text
    pure (none, resp)
  | some (.ok st, resp) => do
    record { x with reply := some d, ret := some st }
    pure (some st, resp)

/-- The rest of `xfer`, on a connected socket. -/
def exchange (type : MsgType) (flags : UInt16) (body : List UInt8) (resp : Option RespBuf) :
    Prog (Option UInt16 × Option RespBuf) := do
  let seq ← nextSeq
  let x : Exchange := ⟨type, flags, body, datagram type flags seq body, none, none⟩
  match ← callSend w with
  | some e =>
    record x
    perror "send".toList e
    pure (none, resp)
  | none =>
    match ← callRecv w with
    | .error e =>
      record x
      perror "recv".toList e
      pure (none, resp)
    | .ok d => accept x seq resp d

/-- `xfer`. -/
def xfer (type : MsgType) (flags : UInt16) (body : List UInt8) (resp : Option RespBuf) :
    Prog (Option UInt16 × Option RespBuf) := do
  let up ← dial w
  if up then exchange w type flags body resp else pure (none, resp)

/-- The buffer of a caller that passes its operation for the answer, too. -/
def opBuf (op : Op) : RespBuf := ⟨fun i => op.encode[i]?, 12⟩

/-- The operation in a buffer. -/
def opOf (b : RespBuf) : Option Op := (loadBytes b.mem opSize 0).map Op.decode

/-- `xfer(type, flags, &op, sizeof(op), &op, &rlen)`: the return value, and `op` afterwards. -/
def opXfer (type : MsgType) (flags : UInt16) (op : Op) : Prog (Option UInt16 × Op) := do
  let r ← xfer w type flags op.encode (some (opBuf op))
  match r.2.bind opOf with
  | none => throw .unset
  | some op => pure (r.1, op)

/-! ## The commands -/

/-- `%d` of the return value of `xfer`. -/
def retText : Option UInt16 → Text
  | some st => dec st.toNat
  | none => "-1".toList

/-- `return st != SPIPROXY_OK`. -/
def exitCode (st : Option UInt16) : ℕ := if st = some 0 then 0 else 1

/-- Base 10. -/
def decimal : Base := ⟨10, by decide⟩

/-- Base 16. -/
def hexadecimal : Base := ⟨16, by decide⟩

/-- `INT_MAX`. -/
def intMax : UInt64 := 2147483647

/-- The operation in the arguments of `read`. -/
def readOp (slice mmd reg : CString) : Except Text Op := do
  let v₁ ← arg slice 0 0 0xff
  let v₂ ← arg mmd 0 0 0xff
  let v₃ ← arg reg 0 0 0xffff
  pure ⟨v₁.toUInt8, 0, v₂.toUInt8, 0, v₃.toUInt16, 0, 0⟩

/-- The operation in the arguments of `write`. The type of the request tells that it is a write, not the
field `write`. -/
def writeOp (slice mmd reg val : CString) : Except Text Op := do
  let op ← readOp slice mmd reg
  let v ← arg val 0 0 0xffffffff
  pure { op with val := v.toUInt32 }

/-- The line of the `read` command. -/
def readLine (st : Option UInt16) (op : Op) : Text :=
  "status=".toList ++ retText st ++ " slice=".toList ++ dec op.slice.toNat ++ " mmd=0x".toList ++
    hex 2 op.mmd.toNat ++ " reg=0x".toList ++ hex 4 op.reg.toNat ++ " val=0x".toList ++
    hex 8 op.val.toNat ++ "\n".toList

/-- The line of the `write` and `reset` commands. -/
def statusLine (st : Option UInt16) : Text := "status=".toList ++ retText st ++ "\n".toList

/-- The `read` command. -/
def readCmd (slice mmd reg : CString) : Prog ℕ := do
  let op ← orDie (readOp slice mmd reg)
  let r ← opXfer w .read 0 op
  print (readLine r.1 r.2)
  pure (exitCode r.1)

/-- The `write` command. -/
def writeCmd (slice mmd reg val : CString) : Prog ℕ := do
  let op ← orDie (writeOp slice mmd reg val)
  let r ← opXfer w .write 0 op
  print (statusLine r.1)
  pure (exitCode r.1)

/-- An argument of `reset`, if it is there. -/
def optArg : Option CString → Prog UInt32
  | none => pure 0
  | some s => do
    let v ← orDie (arg s 0 0 0xffffffff)
    pure v.toUInt32

/-- The `reset` command; arguments behind the second are not looked at. -/
def resetCmd (args : List CString) : Prog ℕ := do
  let a ← optArg args[0]?
  let d ← optArg args[1]?
  let r ← xfer w .reset 0 (ResetReq.encode ⟨a, d⟩) none
  if r.1 = some Status.enosys.code then
    eprint ("reset: daemon has no reset GPIO configured (start it" ++
      " with -r <line-name>, e.g. -r lan8023-rst)\n").toList
  print (statusLine r.1)
  pure (exitCode r.1)

/-- The operation of `bench`, `hammer` and `claimtest`: a read of `DEVICE_ID`. -/
def deviceIdOp (deviceIdReg : UInt16) : Op := ⟨0, 0, mmdGlobal, 0, deviceIdReg, 0, 0⟩

/-- The loop of `bench` with `k` rounds to go, the first of them number `i`; the rounds with a negative
number are not measured. Each answer is the operation of the next round. -/
def benchLoop : ℕ → ℤ → Op → List UInt32 → Prog (Op × List UInt32)
  | 0, _, op, lat => pure (op, lat)
  | k + 1, i, op, lat => do
    let t ← nowUs w
    let r ← opXfer w .read 0 op
    if r.1 ≠ some 0 then die ("read failed at ".toList ++ decInt i ++ "\n".toList)
    else if 0 ≤ i then do
      let t' ← nowUs w
      benchLoop k (i + 1) r.2 (lat ++ [(t' - t).toUInt32])
    else benchLoop k (i + 1) r.2 lat

/-- The numerators of `0.9` and `0.99`, doubles with denominator `2 ^ 53`. -/
def double90 : ℕ := 8106479329266893

@[inherit_doc double90]
def double99 : ℕ := 8917127262193582

/-- The indices of the five latencies that `bench` prints. -/
def benchIndices (n : ℕ) : List ℕ :=
  [0, n / 2, Double.truncMul n double90, Double.truncMul n double99, n - 1]

/-- The line of the `bench` command. -/
def benchLine (n : ℕ) (vs : List UInt32) (val : UInt32) : Text :=
  let v := fun i => dec (vs.getD i 0).toNat
  "proxied read rtt: n=".toList ++ dec n ++ " min=".toList ++ v 0 ++ " p50=".toList ++ v 1 ++
    " p90=".toList ++ v 2 ++ " p99=".toList ++ v 3 ++ " max=".toList ++ v 4 ++ " us (val=0x".toList ++
    hex 8 val.toNat ++ ")\n".toList

/-- The `bench` command. The array has room for `n` latencies, and an element beyond them is not to be
used. -/
def benchCmd (deviceIdReg : UInt16) (n : CString) : Prog ℕ := do
  let v ← orDie (arg n decimal 1 intMax)
  let n := v.toNat
  match w.calloc with
  | some e =>
    perror "calloc".toList e
    throw (.exited 1)
  | none =>
    let r ← benchLoop w (n + 50) (-50) (deviceIdOp deviceIdReg) []
    match (benchIndices n).mapM ((w.qsort r.2)[·]?) with
    | none => throw .unset
    | some vs =>
      print (benchLine n vs r.1.val)
      pure 0

/-- The loop of `hammer`, for at most `fuel` rounds. -/
def hammerLoop (tEnd : UInt64) : ℕ → UInt64 → Op → Prog (UInt64 × Op)
  | 0, _, _ => throw .running
  | fuel + 1, cnt, op => do
    let now ← nowUs w
    if now < tEnd then do
      let r ← opXfer w .read 2 op
      if r.1 ≠ some 0 then die "hammer: read failed\n".toList
      else if r.2.val = 0 ∨ r.2.val &&& 0xff00 ≠ 0x8000 then
        die ("hammer: bad DEVICE_ID 0x".toList ++ hex 8 r.2.val.toNat ++ " after ".toList ++
          dec cnt.toNat ++ " reads\n".toList)
      else hammerLoop tEnd fuel (cnt + 1) r.2
    else pure (cnt, op)

/-- The `hammer` command. -/
def hammerCmd (deviceIdReg : UInt16) (fuel : ℕ) (s : CString) : Prog ℕ := do
  let v ← orDie (arg s decimal 0 intMax)
  let now ← nowUs w
  let r ← hammerLoop w (now + v * 1000000) fuel 0 (deviceIdOp deviceIdReg)
  print ("hammer: ".toList ++ dec r.1.toNat ++ " reads, all DEVICE_ID ok (0x".toList ++
    hex 8 r.2.val.toNat ++ ")\n".toList)
  pure 0

/-- The `claimtest` command. -/
def claimtestCmd (deviceIdReg : UInt16) (ms : CString) : Prog ℕ := do
  let v ← orDie (arg ms decimal 0 0xffffffff)
  let r ← xfer w .claim 0
    (ClaimReq.encode ⟨v.toUInt32, 1, 0⟩ ++ (deviceIdOp deviceIdReg).encode) none
  print ("claim: status=".toList ++ retText r.1 ++ "\n".toList)
  if r.1 ≠ some 0 then throw (.exited 1)
  else do
    let r ← opXfer w .read 0 (deviceIdOp deviceIdReg)
    print ("read under claim: status=".toList ++ retText r.1 ++ " val=0x".toList ++
      hex 8 r.2.val.toNat ++ "\n".toList)
    let r ← xfer w .release 0 [] none
    print ("release: status=".toList ++ retText r.1 ++ "\n".toList)
    pure 0

/-- A payload byte among the arguments. -/
def byteArg (s : CString) : Except Text UInt8 := do
  let v ← arg s hexadecimal 0 0xff
  pure v.toUInt8

/-- The payload of `mailbox`: one byte for each argument, behind the bytes `p`. -/
def payloadArgs : List CString → List UInt8 → Prog (List UInt8)
  | [], p => pure p
  | s :: args, p => do
    if mbMax ≤ p.length then
      die ("mailbox: too many payload bytes (max ".toList ++ dec mbMax ++ ")\n".toList)
    else
      let b ← orDie (byteArg s)
      payloadArgs args (p ++ [b])

/-- The return value of `xfer` for `mailboxPrint`, to which one `-1` is like the other. -/
def retExcept : Option UInt16 → Except RespError UInt16
  | some st => .ok st
  | none => .error (.short 0)

/-- The `mailbox` command. -/
def mailboxCmd (timeoutMs : UInt64) (cmd : CString) (args : List CString) : Prog ℕ := do
  let v ← orDie (arg cmd 0 0 0xff)
  let p ← payloadArgs args []
  let r ← xfer w .mailbox 0
    (Mb.encode ⟨0, v.toUInt8, UInt16.ofNat p.length, timeoutMs.toUInt32⟩ ++ p)
    (some ⟨fun _ => none, mbRespMax⟩)
  match r.2.bind fun b => mailboxPrint (retExcept r.1) b.mem with
  | none => throw .unset
  | some (s, code) =>
    print s
    pure code

/-- The characters of the string at byte `i`, of whose memory `k` bytes are looked at. -/
def stringAt (mem : ℕ → Option UInt8) : ℕ → ℕ → Option Text
  | 0, _ => none
  | k + 1, i => do
    let b ← mem i
    if b = 0 then some []
    else
      let s ← stringAt mem k (i + 1)
      some (Char.ofNat b.toNat :: s)

/-- `txt[rlen] = 0` and the string in `txt`. -/
def textOf (b : RespBuf) : Option Text :=
  stringAt (Function.update b.mem b.rlen.toNat (some 0)) (b.rlen.toNat + 1) 0

/-- The `stats` and `trace` commands. -/
def textCmd (type : MsgType) : Prog ℕ := do
  let r ← xfer w type 0 [] (some ⟨fun _ => none, 4096⟩)
  match r.2.bind textOf with
  | none => throw .unset
  | some s =>
    print s
    pure (exitCode r.1)

/-! ## `main` -/

/-- What a call of `getopt` returns. -/
inductive Opt
  | s (optarg : CString)
  | t (optarg : CString)
  | other

/-- The loop over the options; `v` is in `timeout_ms`. -/
def options : List Opt → UInt64 → Prog UInt64
  | [], v => pure v
  | .s path :: opts, v => do
    modifyGet fun t => ((), { t with sock := path.chars })
    options opts v
  | .t ms :: opts, _ => do
    let v ← orDie (arg ms 0 0 0xffffffff)
    options opts v
  | .other :: _, _ => die "see header comment for usage\n".toList

/-- The tests of `main` for its commands: a command with the wrong number of arguments is unknown. -/
def command (deviceIdReg : UInt16) (fuel : ℕ) (timeoutMs : UInt64) (cmd : CString)
    (args : List CString) : Prog ℕ :=
  let unknown : Prog ℕ := die ("unknown command '".toList ++ cmd.chars ++ "'\n".toList)
  if cmd.chars = "read".toList then
    match args with
    | [slice, mmd, reg] => readCmd w slice mmd reg
    | _ => unknown
  else if cmd.chars = "write".toList then
    match args with
    | [slice, mmd, reg, val] => writeCmd w slice mmd reg val
    | _ => unknown
  else if cmd.chars = "reset".toList then resetCmd w args
  else if cmd.chars = "bench".toList then
    match args with
    | [n] => benchCmd w deviceIdReg n
    | _ => unknown
  else if cmd.chars = "hammer".toList then
    match args with
    | [s] => hammerCmd w deviceIdReg fuel s
    | _ => unknown
  else if cmd.chars = "claimtest".toList then
    match args with
    | [ms] => claimtestCmd w deviceIdReg ms
    | _ => unknown
  else if cmd.chars = "mailbox".toList then
    match args with
    | c :: bytes => mailboxCmd w timeoutMs c bytes
    | [] => unknown
  else if cmd.chars = "stats".toList then textCmd w .stats
  else if cmd.chars = "trace".toList then textCmd w .trace
  else unknown

/-- `main`. -/
def main (deviceIdReg : UInt16) (fuel : ℕ) (opts : List Opt) (argv : List CString) : Prog ℕ := do
  let timeoutMs ← options opts 0
  match argv with
  | [] => die "missing command\n".toList
  | cmd :: args => command w deviceIdReg fuel timeoutMs cmd args

end

/-- How a program ends, and the state in which it does. -/
def ends (p : Prog ℕ) (t : Tool) : How × Tool :=
  match p t with
  | .ok code t => (.exited code, t)
  | .error how t => (how, t)

end Spid.Cli
