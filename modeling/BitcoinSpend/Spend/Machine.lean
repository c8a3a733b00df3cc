import BitcoinSpend.Spend.Execute

/-!
# Running a pair of scripts

The unlocking script runs first, against empty stacks; what it leaves on them is
what the locking script starts from. The pair succeeds when the locking script
ends with a true item on top. A failure is reported with a snapshot of the
machine as it was left.
-/

set_option autoImplicit false

namespace BitcoinSpend.Spend

/-- A place between two chunks and the state there. -/
structure Machine where
  setup : Setup
  phase : Phase
  /-- The index of the chunk to run next in the running script. -/
  position : Nat
  state : State

/-- The report of a failure. -/
structure Failure where
  fault : Fault
  sourceTxid : Hash32
  sourceIndex : UInt32
  phase : Phase
  position : Nat
  /-- The items of the main stack, bottom first. -/
  stack : List Bytes
  /-- The items of the alternative stack, bottom first. -/
  alt : List Bytes
  /-- Whether the branch of each open conditional is taken, outermost first. -/
  branches : List Bool
  stackHeld : Nat
  altHeld : Nat
  deriving DecidableEq, Repr

def Failure.message (failure : Failure) : String :=
  "spend of " ++ failure.sourceTxid.display ++ ":" ++ toString failure.sourceIndex.toNat ++
    " failed in " ++ failure.phase.label ++ " at " ++ toString failure.position ++ ": " ++
    failure.fault.code.name ++ ": " ++ failure.fault.message

namespace Machine

def script (machine : Machine) : List Chunk :=
  machine.setup.script machine.phase

/-- The items of the main stack, bottom first. -/
def stack (machine : Machine) : List Bytes :=
  machine.state.stack.toList

/-- The items of the alternative stack, bottom first. -/
def alt (machine : Machine) : List Bytes :=
  machine.state.alt.toList

/-- Whether the branch of each open conditional is taken, outermost first. -/
def branches (machine : Machine) : List Bool :=
  machine.state.branches.reverse

def isFinished (machine : Machine) : Bool :=
  machine.phase = .locking && machine.setup.locking.length ≤ machine.position

def failure (machine : Machine) (fault : Fault) : Failure where
  fault := fault
  sourceTxid := machine.setup.sourceTxid
  sourceIndex := machine.setup.sourceIndex
  phase := machine.phase
  position := machine.position
  stack := machine.stack
  alt := machine.alt
  branches := machine.branches
  stackHeld := machine.state.stack.held
  altHeld := machine.state.alt.held

def initial (setup : Setup) : Machine :=
  ⟨setup, .unlocking, 0, State.initial setup.numberRule⟩

end Machine

/-- What to run. -/
structure Request where
  sourceTxid : Hash32
  sourceIndex : UInt32
  unlocking : Script
  locking : Script
  context : Option TxContext
  inputIndex : Nat
  flags : Flags
  memoryLimit : Nat

namespace Request

/-- The flags in force: replay protection asks for strict encodings as well. -/
def effectiveFlags (request : Request) : Flags :=
  if request.flags.has Flags.enableForkId then request.flags.union Flags.strictEncoding
  else request.flags

def setup (request : Request) (unlocking locking : List Chunk) : Setup where
  sourceTxid := request.sourceTxid
  sourceIndex := request.sourceIndex
  unlocking := unlocking
  locking := locking
  context := request.context
  inputIndex := request.inputIndex
  flags := request.effectiveFlags
  memoryLimit := request.memoryLimit

def readScript (request : Request) (phase : Phase) (script : Script) : Except Fault (List Chunk) :=
  let limit := (Limits.ofFlags request.effectiveFlags).maxScriptSize
  if limit < script.size then .error (.scriptTooBig phase script.size limit)
  else script.chunks.mapError .malformedScript

/-- The machine for a request, unless a script is too big or does not split into chunks, or the
unlocking script holds more than the pushes that a flag asks for. -/
def start (request : Request) : Except Failure Machine :=
  match request.readScript .unlocking request.unlocking with
  | .error fault => .error ((Machine.initial (request.setup [] [])).failure fault)
  | .ok unlocking =>
      match request.readScript .locking request.locking with
      | .error fault =>
          .error ({ Machine.initial (request.setup unlocking []) with
            phase := .locking }.failure fault)
      | .ok locking =>
          let machine := Machine.initial (request.setup unlocking locking)
          if request.effectiveFlags.has Flags.signaturePushOnly && !unlocking.all Chunk.isPush then
            .error (machine.failure .notPushOnly)
          else .ok machine

end Request

/-- A move of the machine that may fail. -/
abbrev Move := EStateM Fault Machine

/-- A move of the machine whose failures are reports. -/
abbrev Run := EStateM Failure Machine

namespace Machine

/-- Reports the faults of a move with the machine that they leave. -/
def reporting (move : Move Unit) : Run Unit := fun machine =>
  match move machine with
  | .ok () next => .ok () next
  | .error fault next => .error (next.failure fault) next

/-- Goes from the end of the unlocking script to the start of the locking script. The stacks stay;
all else starts anew. -/
def enterLocking : Move Unit := fun machine =>
  if machine.state.branches.isEmpty then
    .ok () { machine with
      phase := .locking
      position := 0
      state := { machine.state with separator := none, opCount := 0, returned := false } }
  else .error .openAtUnlockingEnd machine

def runChunk (chunk : Chunk) : Move Unit := fun machine =>
  match Exec.chunk chunk ⟨machine.setup, machine.phase, machine.position⟩ machine.state with
  | .ok .next state => .ok () { machine with state := state, position := machine.position + 1 }
  | .ok .finish state => .ok () { machine with state := state, position := machine.script.length }
  | .error fault state => .error fault { machine with state := state }

def checkLimits : Move Unit := fun machine =>
  let size := machine.state.stack.depth + machine.state.alt.depth
  let held := machine.state.stack.held + machine.state.alt.held
  if machine.setup.limits.maxStackSize < size then
    .error (.stackOverflow size machine.setup.limits.maxStackSize) machine
  else if machine.setup.memoryLimit < held then
    .error (.memoryExceeded held machine.setup.memoryLimit) machine
  else .ok () machine

/-- Runs the chunk at the machine's place and checks the limits after it. At the end of the locking
script nothing happens. -/
def runCurrent : Move Unit := fun machine =>
  if machine.isFinished then .ok () machine
  else
    match machine.script[machine.position]? with
    | none => .error .outOfRange machine
    | some chunk => (do runChunk chunk; checkLimits : Move Unit) machine

/-- Whether the unlocking script has run to its end and the locking script has not begun. -/
def isBetween (machine : Machine) : Bool :=
  machine.phase = .unlocking && machine.setup.unlocking.length ≤ machine.position

/-- Runs one chunk, after going to the locking script if the unlocking script is at its end. At the
end of the locking script nothing happens. -/
def advance : Move Unit := do
  let machine ← get
  if machine.isBetween then enterLocking
  runCurrent

def step : Run Unit :=
  reporting advance

/-- The number of moves that a machine can still make. -/
def remaining (machine : Machine) : Nat :=
  match machine.phase with
  | .unlocking =>
      (machine.setup.unlocking.length - machine.position) + machine.setup.locking.length + 1
  | .locking => machine.setup.locking.length - machine.position

end Machine

end BitcoinSpend.Spend
