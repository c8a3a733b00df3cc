import BitcoinSpend.Merkle.Tracker
import BitcoinSpend.Transaction.Context
import BitcoinSpend.Transaction.Totals

/-!
# Verifying a transaction and its ancestry

The transaction and, through its inputs, its unconfirmed ancestors are visited in
breadth-first order, each identifier once. A visit ends a branch where the chain
accepts the transaction's Merkle path; otherwise the sources of all inputs must
be known, the transaction must not make more than it takes, and the scripts of
all inputs must succeed.
-/

set_option autoImplicit false

namespace BitcoinSpend

/-- How transactions are verified. -/
structure VerifyOptions where
  flags : Spend.Flags
  /-- The number of bytes that the stacks of one input may hold. -/
  memoryLimit : Nat
  /-- Whether the inputs of a transaction are evaluated apart from each other. -/
  parallel : Bool
  /-- Whether a Merkle path is trusted without asking the chain. -/
  scriptsOnly : Bool
  deriving DecidableEq, Repr

namespace Transaction

def requireSource (tx : Transaction) (input : Input) (index : Nat) : Except TransactionError Unit :=
  match input.sourceOutput index with
  | .ok _ => .ok ()
  | .error (.noSource _) => .error (.untraceable tx.txid index)
  | .error cause => .error cause

/-- Evaluates one input after another, up to the first failure. -/
def evaluateInOrder (tx : Transaction) (options : VerifyOptions) : Except TransactionError Unit :=
  tx.inputs.zipIdx.forM fun (input, index) =>
    tx.evaluateInput options.flags options.memoryLimit input index

/-- Evaluates every input and then reports the first failure. -/
def evaluateApart (tx : Transaction) (options : VerifyOptions) : Except TransactionError Unit :=
  let results := tx.inputs.zipIdx.map fun (input, index) =>
    tx.evaluateInput options.flags options.memoryLimit input index
  results.forM id

def evaluateInputs (tx : Transaction) (options : VerifyOptions) : Except TransactionError Unit :=
  if options.parallel && 2 ≤ tx.inputs.length then tx.evaluateApart options
  else tx.evaluateInOrder options

/-- What a transaction that is not anchored must satisfy. -/
def checkUnanchored (tx : Transaction) (options : VerifyOptions) :
    Except TransactionError Unit := do
  tx.inputs.zipIdx.forM fun (input, index) => tx.requireSource input index
  let _ ← tx.paidFee
  tx.evaluateInputs options

/-- Whether the chain has the transaction, as far as its Merkle path tells. -/
def isAnchored {m : Type → Type} [Monad m] (tx : Transaction) (tracker : Merkle.Tracker m)
    (options : VerifyOptions) : ExceptT TransactionError m Bool :=
  match tx.path with
  | none => pure false
  | some path =>
      if options.scriptsOnly then pure true
      else ExceptT.mk do
        let answer ← path.verify tx.txid tracker
        pure (answer.mapError .merkle)

/-- How much a queue holds, the sources of its transactions included. -/
noncomputable def queueSize : List Transaction → Nat
  | [] => 0
  | tx :: rest => sizeOf tx + queueSize rest

private theorem queueSize_append (queue later : List Transaction) :
    queueSize (queue ++ later) = queueSize queue + queueSize later := by
  induction queue with
  | nil => simp [queueSize]
  | cons tx rest ih => simp [queueSize, ih, Nat.add_assoc]

private theorem queueSize_sources_le (inputs : List Input) :
    queueSize (inputs.filterMap Input.source) ≤ sizeOf inputs := by
  induction inputs with
  | nil => simp [queueSize]
  | cons input rest ih =>
      cases input with
      | mk outpoint sequence unlocking unlocker source value script =>
          cases source with
          | none =>
              simp only [List.filterMap_cons, List.cons.sizeOf_spec]
              omega
          | some tx =>
              simp only [List.filterMap_cons, queueSize, List.cons.sizeOf_spec,
                Input.mk.sizeOf_spec, Option.some.sizeOf_spec]
              omega

/-- The sources of a transaction are together smaller than the transaction. -/
private theorem queueSize_sources_lt (tx : Transaction) : queueSize tx.sources < sizeOf tx := by
  have bound := queueSize_sources_le tx.inputs
  cases tx with
  | mk version inputs outputs lockTime path =>
      simp only [sources, Transaction.mk.sizeOf_spec] at *
      omega

/-- Verifies the transactions of a queue and their ancestors, except those visited before. -/
def verifyQueue {m : Type → Type} [Monad m] (tracker : Merkle.Tracker m)
    (options : VerifyOptions) (visited : List Hash32) (queue : List Transaction) :
    ExceptT TransactionError m Unit :=
  match queue with
  | [] => pure ()
  | tx :: rest =>
      if tx.txid ∈ visited then verifyQueue tracker options visited rest
      else do
        let anchored ← tx.isAnchored tracker options
        if anchored then verifyQueue tracker options (tx.txid :: visited) rest
        else do
          ExceptT.mk (pure (tx.checkUnanchored options))
          verifyQueue tracker options (tx.txid :: visited) (rest ++ tx.sources)
termination_by queueSize queue
decreasing_by
  · have := tx.queueSize_sources_lt
    simp only [queueSize]
    omega
  · have := tx.queueSize_sources_lt
    simp only [queueSize]
    omega
  · have := tx.queueSize_sources_lt
    simp only [queueSize, queueSize_append]
    omega

/-- Verifies a transaction and its ancestry. -/
def verify {m : Type → Type} [Monad m] (tx : Transaction) (tracker : Merkle.Tracker m)
    (options : VerifyOptions) : ExceptT TransactionError m Unit :=
  verifyQueue tracker options [] [tx]

end Transaction

end BitcoinSpend
