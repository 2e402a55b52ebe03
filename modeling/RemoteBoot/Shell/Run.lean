import RemoteBoot.Shell.Builtin
import RemoteBoot.Shell.Field
import RemoteBoot.Shell.Reader
import RemoteBoot.Shell.Utilities

/-!
# Running scripts

Commands run one behind the other on the state of the script; the stages of a pipe do so too, each
on all that the one before has printed.  The first argument of every function bounds the depth of
the recursion and the rounds of a loop; a script that exceeds it ends with status 2.
-/

set_option autoImplicit false

namespace RemoteBoot.Shell

namespace Script

/-- Runs a part of a script and then settles the machine, also if the part was interrupted. -/
def settling {α : Type} (part : Script α) (settle : Machine → Machine → Machine) : Script α :=
  fun before =>
    let (result, after) := part before
    (result, settle before after)

/-- Runs a part of a script that keeps its variables, arguments and descriptors to itself.  Only a
signal reaches beyond it. -/
def isolated (part : Script Unit) : Script Unit := fun before =>
  let (result, after) := part before
  let kept := { before with
    tree := after.tree, buffers := after.buffers, inputs := after.inputs, status := after.status }
  match result with
  | .ok () => (.ok (), kept)
  | .error (.leave status) => (.ok (), { kept with status })
  | .error (.killed signal) => (.error (.killed signal), kept)
  | .error _ => (.ok (), kept)

/-- Runs a part of a script whose failure does not end a strict script. -/
def guarded (part : Script Unit) : Script Unit :=
  settling (do
      modify fun machine => { machine with guarded := true }
      part)
    fun before after => { after with guarded := before.guarded }

def setStatus (status : Nat) : Script Unit :=
  modify fun machine => { machine with status }

/-- Ends a strict script whose last command failed. -/
def judge : Script Unit := do
  let machine ← get
  if machine.strict && !machine.guarded && machine.status ≠ 0 then throw (.leave machine.status)

/-- Ends the script with a message. -/
def abort {α : Type} (message : String) : Script α := do
  Effect.complain (message ++ "\n").toList
  throw (.leave 2)

/-- Variables as they were for some names. -/
def restoreVariables (names : List Text) (before after : Machine) : Machine :=
  let others := after.bindings.filter fun (name, _) => !names.contains name
  let old := before.bindings.filter fun (name, _) => names.contains name
  { after with bindings := old ++ others }

/-- Output without the line ends behind it, and without zeros. -/
def trimmedOutput (text : Text) : Text :=
  let text := text.filter fun character => character ≠ '\x00'
  (text.reverse.dropWhile fun character => character = '\n').reverse

end Script

open Script

mutual

/-- The pieces that the parts of a word expand to. -/
def pieces : Nat → List Part → Script (List Piece)
  | 0, _ => throw (.leave 2)
  | _ + 1, [] => pure []
  | fuel + 1, part :: parts => do
    let alone :=
      match part, parts with
      | .literal [] true, .parameter ['@'] .value true :: _ => true
      | _, _ => false
    if alone && (← get).arguments.isEmpty then pieces fuel (parts.drop 1)
    else
      let first ← partPieces fuel part
      let others ← pieces fuel parts
      pure (first ++ others)

def partPieces : Nat → Part → Script (List Piece)
  | 0, _ => throw (.leave 2)
  | _ + 1, .literal text quoted => pure [.text text quoted false]
  | fuel + 1, .parameter name use quoted => parameterPieces fuel name use quoted
  | fuel + 1, .output body quoted => do
    let buffer ← Effect.newBuffer
    isolated do
      modify (Machine.connect 1 (.buffer buffer))
      run fuel body
    modify fun machine => { machine with substituted := some machine.status }
    pure [.expanded quoted (trimmedOutput ((← get).collected buffer))]
  | fuel + 1, .sum body quoted => do
    let expression := Piece.join (← pieces fuel body)
    let machine ← get
    match Arithmetic.value? (fun name => (machine.parameter? name).getD []) expression with
    | some value => pure [.expanded quoted (Arithmetic.render value)]
    | none => abort "arithmetic expression expected"

def parameterPieces : Nat → Text → Use → Bool → Script (List Piece)
  | 0, _, _, _ => throw (.leave 2)
  | fuel + 1, name, use, quoted => do
    let machine ← get
    let value? := machine.parameter? name
    let value := value?.getD []
    match use with
    | .value =>
      if name = ['@'] ∨ name = ['*'] ∧ !quoted then
        pure ((machine.arguments.map (Piece.expanded quoted)).intersperse .gap)
      else pure [.expanded quoted value]
    | .length =>
      let count :=
        if name = ['@'] ∨ name = ['*'] then machine.arguments.length else value.length
      pure [.expanded quoted (Numeral.render 10 count)]
    | .fallback operator emptyToo word =>
      let present := value?.isSome && !(emptyToo && value.isEmpty)
      if operator = '+' then
        if present then do
          let word ← pieces fuel word
          pure (word.map Piece.splitting)
        else pure []
      else if present then pure [.expanded quoted value]
      else do
        let word ← pieces fuel word
        if operator = '-' then pure (word.map Piece.splitting)
        else if operator = '=' then
          modify (Machine.assign name (Piece.join word))
          pure [.expanded quoted (Piece.join word)]
        else abort (String.ofList (name ++ ": ".toList ++ Piece.join word))
    | .trim atEnd longest pattern => do
      let pattern := Piece.pattern (← pieces fuel pattern)
      pure [.expanded quoted
        (if atEnd then pattern.dropTail longest value else pattern.dropHead longest value)]

/-- The fields that words expand to. -/
def fields : Nat → List (List Part) → Script (List Text)
  | 0, _ => throw (.leave 2)
  | _ + 1, [] => pure []
  | fuel + 1, word :: words => do
    let first := Piece.fields (← pieces fuel word)
    let others ← fields fuel words
    pure (first ++ others)

def assignAll : Nat → List (Text × List Part) → Script Unit
  | 0, _ => throw (.leave 2)
  | _ + 1, [] => pure ()
  | fuel + 1, (name, word) :: assignments => do
    modify (Machine.assign name (Piece.join (← pieces fuel word)))
    assignAll fuel assignments

/-- Connects descriptors; `false` if one could not be. -/
def connectAll : Nat → List Redirection → Script Bool
  | 0, _ => throw (.leave 2)
  | _ + 1, [] => pure true
  | fuel + 1, .mk descriptor kind target :: redirections => do
    let target := Piece.join (← pieces fuel target)
    let channel : Except SystemError Channel ←
      match kind with
      | .input => do
        match ← Effect.readFile target with
        | .ok text => Except.ok <$> Effect.newInput text
        | .error failure => pure (.error failure)
      | .output => Effect.openOutput target false
      | .append => Effect.openOutput target true
      | .duplicate =>
        match Numeral.ofDigits? 10 target with
        | some source => return ← do
          modify fun machine => machine.connect descriptor (machine.channel source)
          connectAll fuel redirections
        | none => pure (.ok .void)
    match channel with
    | .ok channel =>
      modify (Machine.connect descriptor channel)
      connectAll fuel redirections
    | .error failure =>
      Effect.complain (Utilities.fileMessage "cannot open" target failure)
      pure false

/-- Runs a command that is given by its fields. -/
def runFields : Nat → Text → List Text → Script Nat
  | 0, _, _ => throw (.leave 2)
  | fuel + 1, name, arguments => do
    match Builtin.find? name with
    | some builtin => builtin arguments
    | none =>
      match String.ofList name with
      | "eval" =>
        match script? (arguments.intersperse [' ']).flatten with
        | some body => do
          run fuel body
          pure (← get).status
        | none => abort "syntax error"
      | "exec" =>
        match arguments with
        | [] => pure 0
        | name :: arguments => do
          throw (.leave (← runFields fuel name arguments))
      | "command" =>
        match arguments with
        | [] => pure 0
        | name :: arguments => runFields fuel name arguments
      | _ =>
        match (← get).functions.lookup name with
        | some body => do
          let call : Script Unit := do
            modify fun machine => { machine with arguments }
            tryCatch (run fuel body) fun interruption =>
              if interruption = .finishFunction then pure () else throw interruption
          settling call fun before after => { after with arguments := before.arguments }
          pure (← get).status
        | none =>
          match Utilities.find? name with
          | some utility => utility arguments
          | none =>
            Effect.complain (name ++ ": not found\n".toList)
            pure 127

/-- Runs a simple command. -/
def runSimple : Nat → List (Text × List Part) → List (List Part) → List Redirection → Script Unit
  | 0, _, _, _ => throw (.leave 2)
  | fuel + 1, assignments, words, redirections => do
    modify fun machine => { machine with substituted := none }
    let fields ← fields fuel words
    let persistent := fields = ["exec".toList]
    let body : Script Unit := do
      if ← connectAll fuel redirections then
        match fields with
        | [] =>
          assignAll fuel assignments
          setStatus ((← get).substituted.getD 0)
        | name :: arguments =>
          let call : Script Unit := do
            assignAll fuel assignments
            setStatus (← runFields fuel name arguments)
          settling call (restoreVariables (assignments.map Prod.fst))
      else setStatus 2
    settling body fun before after =>
      if persistent then after else { after with descriptors := before.descriptors }

/-- Runs the stages of a pipe. -/
def runStages : Nat → List Command → Script Unit
  | 0, _ => throw (.leave 2)
  | _ + 1, [] => pure ()
  | fuel + 1, [last] => isolated (run fuel last)
  | fuel + 1, stage :: stages => do
    let buffer ← Effect.newBuffer
    isolated do
      modify (Machine.connect 1 (.buffer buffer))
      run fuel stage
    let channel ← Effect.newInput ((← get).collected buffer)
    settling (do
        modify (Machine.connect 0 channel)
        runStages fuel stages)
      fun before after => { after with descriptors := before.descriptors }

def runAll : Nat → List Command → Script Unit
  | 0, _ => throw (.leave 2)
  | _ + 1, [] => pure ()
  | fuel + 1, command :: commands => do
    run fuel command
    runAll fuel commands

/-- Runs one round of a loop; `false` if it is the last. -/
def runRound : Nat → Command → Script Bool
  | 0, _ => throw (.leave 2)
  | fuel + 1, body =>
    tryCatch (do
        run fuel body
        pure true)
      fun interruption =>
        match interruption with
        | .stopLoop (levels + 2) => throw (.stopLoop (levels + 1))
        | .stopLoop _ => pure false
        | .nextRound (levels + 2) => throw (.nextRound (levels + 1))
        | .nextRound _ => pure true
        | other => throw other

/-- Runs a loop; the status is that of its last round. -/
def runLoop : Nat → Bool → Command → Command → Nat → Script Unit
  | 0, _, _, _, _ => throw (.leave 2)
  | fuel + 1, expected, condition, body, status => do
    guarded (run fuel condition)
    if ((← get).status == 0) = expected then
      if ← runRound fuel body then runLoop fuel expected condition body (← get).status
      else setStatus 0
    else setStatus status

def runEach : Nat → Text → List Text → Command → Script Unit
  | 0, _, _, _ => throw (.leave 2)
  | _ + 1, _, [], _ => pure ()
  | fuel + 1, name, field :: fields, body => do
    modify (Machine.assign name field)
    if ← runRound fuel body then runEach fuel name fields body else setStatus 0

/-- Runs the first arm with a pattern that matches. -/
def runArms : Nat → Text → List (List (List Part) × Command) → Script Unit
  | 0, _, _ => throw (.leave 2)
  | _ + 1, _, [] => pure ()
  | fuel + 1, subject, (patterns, body) :: arms => do
    if ← matchesAny fuel subject patterns then run fuel body else runArms fuel subject arms

def matchesAny : Nat → Text → List (List Part) → Script Bool
  | 0, _, _ => throw (.leave 2)
  | _ + 1, _, [] => pure false
  | fuel + 1, subject, pattern :: patterns => do
    if (Piece.pattern (← pieces fuel pattern)).isMatch subject then pure true
    else matchesAny fuel subject patterns

def run : Nat → Command → Script Unit
  | 0, _ => throw (.leave 2)
  | fuel + 1, command =>
    match command with
    | .simple assignments words redirections => do
      runSimple fuel assignments words redirections
      judge
    | .pipe stages => do
      runStages fuel stages
      judge
    | .negate body => do
      guarded (run fuel body)
      setStatus (if (← get).status = 0 then 1 else 0)
    | .join first joint second => do
      guarded (run fuel first)
      let succeeded := (← get).status == 0
      if succeeded = (joint = .onSuccess) then run fuel second
    | .sequence commands => runAll fuel commands
    | .choose condition thenBody elseBody => do
      guarded (run fuel condition)
      if (← get).status = 0 then run fuel thenBody
      else
        match elseBody with
        | .sequence [] => setStatus 0
        | other => run fuel other
    | .loop expected condition body => runLoop fuel expected condition body 0
    | .each name words body => do
      let fields ← fields fuel words
      setStatus 0
      runEach fuel name fields body
    | .select subject arms => do
      let subject := Piece.join (← pieces fuel subject)
      setStatus 0
      runArms fuel subject arms
    | .subshell body => do
      isolated (run fuel body)
      judge
    | .define name body => do
      modify fun machine => { machine with functions := (name, body) :: machine.functions }
      setStatus 0
    | .redirect body redirections =>
      settling (do
          if ← connectAll fuel redirections then run fuel body else setStatus 2)
        fun before after => { after with descriptors := before.descriptors }

end

/-- How far a script can go. -/
def runLimit : Nat := 100000

/-- What a script leaves when it has ended. -/
structure Finished where
  /-- The signal that ended it, or its status. -/
  status : Except Nat Nat
  output : Bytes
  diagnostics : Bytes
  /-- How many bytes of input it left. -/
  unread : Nat
  tree : FileTree

/-- Runs the text of a script with arguments and input on a tree of files. -/
def runText (script : Text) (environment : List (Text × Text)) (arguments : List Text)
    (input : Bytes) (tree : FileTree) : Finished :=
  match script? script with
  | none => ⟨.ok 2, [], toBytes "syntax error\n".toList, input.length, tree⟩
  | some command =>
    let machine : Machine :=
      { tree
        bindings := environment
        arguments
        descriptors := [(0, .input 0), (1, .buffer 0), (2, .buffer 1)]
        buffers := #[[], []]
        inputs := #[ofBytes input] }
    let (result, machine) := run runLimit command machine
    let status : Except Nat Nat :=
      match result with
      | .ok () => .ok machine.status
      | .error (.leave status) => .ok status
      | .error (.killed signal) => .error signal
      | .error _ => .ok machine.status
    ⟨status, toBytes (machine.collected 0), toBytes (machine.collected 1),
      (machine.inputs.getD 0 []).length, machine.tree⟩

end RemoteBoot.Shell
