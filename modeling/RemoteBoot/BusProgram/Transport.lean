import RemoteBoot.BusProgram.Plan
import RemoteBoot.Settings
import RemoteBoot.Text.Blank

/-!
# Access through a bus program

Every call of the bus program moves the bytes of one span.  Bytes that were read arrive on its
output, bytes to be written go to its input, and what it prints as diagnostics becomes the text of
the fault.  `Launcher` is any host that can run programs.
-/

set_option autoImplicit false

namespace RemoteBoot.BusProgram

inductive Direction where
  | read
  | write
  deriving DecidableEq, Repr

def Direction.option : Direction → Text
  | .read => ['-', 'r']
  | .write => ['-', 'w']

/-- How a program ended. -/
inductive Ending where
  | code (status : Nat)
  | signal (number : Nat)
  deriving DecidableEq, Repr

namespace Ending

def isSuccess (ending : Ending) : Bool :=
  ending == .code 0

/-- The names of signals. -/
def signalName? (number : Nat) : Option String :=
  [(1, "SIGHUP"), (2, "SIGINT"), (3, "SIGQUIT"), (4, "SIGILL"), (5, "SIGTRAP"), (6, "SIGABRT"),
    (7, "SIGBUS"), (8, "SIGFPE"), (9, "SIGKILL"), (10, "SIGUSR1"), (11, "SIGSEGV"),
    (12, "SIGUSR2"), (13, "SIGPIPE"), (14, "SIGALRM"), (15, "SIGTERM"), (16, "SIGSTKFLT"),
    (17, "SIGCHLD"), (18, "SIGCONT"), (19, "SIGSTOP"), (20, "SIGTSTP"), (21, "SIGTTIN"),
    (22, "SIGTTOU"), (23, "SIGURG"), (24, "SIGXCPU"), (25, "SIGXFSZ"), (26, "SIGVTALRM"),
    (27, "SIGPROF"), (28, "SIGWINCH"), (29, "SIGIO"), (30, "SIGPWR"), (31, "SIGSYS")].lookup number

def label : Ending → String
  | .code status => "exit status: " ++ Numeral.decimal status
  | .signal number =>
    match signalName? number with
    | some name => "signal: " ++ Numeral.decimal number ++ " (" ++ name ++ ")"
    | none => "signal: " ++ Numeral.decimal number

end Ending

structure Call where
  program : Text
  arguments : List Text
  input : Bytes
  deriving DecidableEq, Repr

/-- What a finished program left. -/
structure Completion where
  ending : Ending
  output : Bytes
  diagnostics : Bytes
  /-- Why its input could not be fed to the end, if it could not. -/
  unfed : Option String := none
  deriving DecidableEq, Repr

/-- A host on which programs run; a program that cannot be started has a reason. -/
abbrev Launcher (ρ : Type) := Call → ρ → Except String Completion × ρ

/-- The arguments of the call for a span. -/
def arguments (node : UInt32) (direction : Direction) (span : Span) : List Text :=
  [['-', 'n'], Numeral.render 10 node.toNat, direction.option, ['-', 'a'],
    Numeral.marked span.address, ['-', 's'], Numeral.marked span.blockSize, ['-', 'c'],
    Numeral.marked span.blockCount]

/-- A call as it is shown. -/
def display (call : Call) : String :=
  String.ofList (call.program ++ call.arguments.flatMap fun argument => ' ' :: argument)

/-- What is said about a program that failed. -/
def diagnostic (completion : Completion) : String :=
  let text := Blank.trim (Utf8.decodeLossy completion.diagnostics)
  if text.isEmpty then "exited with " ++ completion.ending.label
  else String.ofList text ++ " (" ++ completion.ending.label ++ ")"

variable {ρ : Type}

/-- Runs the program for one span and judges how it ended. -/
def run (launch : Launcher ρ) (settings : BusSettings) (direction : Direction) (span : Span)
    (input : Bytes) (host : ρ) : Transfer ρ Completion :=
  let call : Call := ⟨settings.program, arguments settings.node direction span, input⟩
  let shown := display call
  let notes := [⟨.trace, .transport, shown⟩]
  match launch call host with
  | (.error reason, host) => ⟨.error (.fault (.transport shown reason)), host, notes⟩
  | (.ok completion, host) =>
    if completion.ending.isSuccess then ⟨.ok completion, host, notes⟩
    else ⟨.error (.fault (.transport shown (diagnostic completion))), host, notes⟩

/-- Reads the bytes of one span. -/
def readSpan (launch : Launcher ρ) (settings : BusSettings) (span : Span) (host : ρ) :
    Transfer ρ Bytes :=
  let left := run launch settings .read span [] host
  match left.result with
  | .error stop => ⟨.error stop, left.node, left.notes⟩
  | .ok completion =>
    if completion.output.length = span.length then ⟨.ok completion.output, left.node, left.notes⟩
    else
      let call : Call := ⟨settings.program, arguments settings.node .read span, []⟩
      ⟨.error (.fault (.transport (display call) ("expected " ++ Numeral.decimal span.length
        ++ " bytes, got " ++ Numeral.decimal completion.output.length))), left.node, left.notes⟩

/-- Reads the bytes of spans one behind the other. -/
def readSpans (launch : Launcher ρ) (settings : BusSettings) :
    List Span → ρ → Transfer ρ Bytes
  | [], host => ⟨.ok [], host, []⟩
  | span :: spans, host =>
    let first := readSpan launch settings span host
    match first.result with
    | .error stop => ⟨.error stop, first.node, first.notes⟩
    | .ok bytes =>
      let others := readSpans launch settings spans first.node
      ⟨others.result.map (bytes ++ ·), others.node, first.notes ++ others.notes⟩

/-- Writes the bytes of one span. -/
def writeSpan (launch : Launcher ρ) (settings : BusSettings) (span : Span) (bytes : Bytes)
    (host : ρ) : Transfer ρ Unit :=
  let left := run launch settings .write span bytes host
  match left.result with
  | .error stop => ⟨.error stop, left.node, left.notes⟩
  | .ok completion =>
    match completion.unfed with
    | none => ⟨.ok (), left.node, left.notes⟩
    | some reason =>
      let call : Call := ⟨settings.program, arguments settings.node .write span, bytes⟩
      ⟨.error (.fault (.transport (display call) reason)), left.node, left.notes⟩

/-- Writes bytes to spans, to each as many as it holds. -/
def writeSpans (launch : Launcher ρ) (settings : BusSettings) :
    List Span → Bytes → ρ → Transfer ρ Unit
  | [], _, host => ⟨.ok (), host, []⟩
  | span :: spans, bytes, host =>
    let first := writeSpan launch settings span (bytes.take span.length) host
    match first.result with
    | .error stop => ⟨.error stop, first.node, first.notes⟩
    | .ok () =>
      let others := writeSpans launch settings spans (bytes.drop span.length) first.node
      ⟨others.result, others.node, first.notes ++ others.notes⟩

/-- Access to the node that the settings name.  A transfer is split before its first call, and all
the bytes of a read arrive or none do. -/
def remote (launch : Launcher ρ) (settings : BusSettings) : Remote ρ where
  read address length := fun host =>
    match plan settings.blockSize.toNat address length with
    | .error stop => ⟨.error stop, host, []⟩
    | .ok spans =>
      let left := readSpans launch settings spans host
      match left.result with
      | .error stop => ⟨.error stop, left.node, left.notes⟩
      | .ok bytes =>
        if bytes.length = length then ⟨.ok bytes, left.node, left.notes⟩
        else
          ⟨.error (.fault (.shortTransfer "read" address length bytes.length)), left.node,
            left.notes⟩
  write address bytes := fun host =>
    match plan settings.blockSize.toNat address bytes.length with
    | .error stop => ⟨.error stop, host, []⟩
    | .ok spans => writeSpans launch settings spans bytes host

end RemoteBoot.BusProgram
