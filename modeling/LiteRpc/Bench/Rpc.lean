import LiteRpc.Rust.Collections

/-!
# The RPC vocabulary of the benches

The types of `bench/src/benches/rpc_interface.rs` and
`bench/src/benches/confirmation_slot.rs` that the modelled functions read or
build, together with the two methods of the solana client crates that the
polling loops call: `TransactionStatus::satisfies_commitment` and
`TransactionStatus::confirmation_status`.

A Rust call that can fail returns `Except Failure α`.  `Failure.err` is an
`anyhow::Error` handed back through `?` or `bail!`; `Failure.panic` is a failed
`assert!`, `expect` or `unwrap`, with its message.  The two are kept apart
because the source treats them differently: a spawned task turns a panic into a
`JoinError`, and `unwrap_or_else` only ever sees the errors.
-/

namespace LiteRpc.Bench

/-- `solana_sdk::clock::Slot`. -/
abbrev Slot := UInt64

/-- `std::time::Duration`, in nanoseconds. -/
abbrev Duration := Nat

/-- `client_error::ErrorKind`; the benches never look inside it. -/
structure ErrorKind where
  description : String
deriving DecidableEq, Repr

/-- `client_error::ClientError`, with the text `{:?}` prints for it. -/
structure ClientError where
  kind : ErrorKind
  debug : String
deriving DecidableEq, Repr

/-- `anyhow::Error`, by where it comes from. -/
inductive Error where
  /-- An RPC error passed up by `?`. -/
  | client (e : ClientError)
  /-- `bail!(msg)`. -/
  | bail (msg : String)
  /-- The `JoinError` of a spawned task that panicked with `msg`, passed up by `?`. -/
  | join (msg : String)
deriving DecidableEq, Repr

/-- How a Rust call can fail. -/
inductive Failure where
  /-- An `Err` returned to the caller. -/
  | err (e : Error)
  /-- A panic, with its message. -/
  | panic (msg : String)
deriving DecidableEq, Repr

/-- The commitment of a `CommitmentConfig`. -/
inductive CommitmentLevel where
  | processed
  | confirmed
  | finalized
deriving DecidableEq, Repr

/-- `solana_transaction_status::TransactionConfirmationStatus`. -/
inductive TransactionConfirmationStatus where
  | processed
  | confirmed
  | finalized
deriving DecidableEq, Repr

/-- `solana_transaction_status::TransactionStatus`, with the fields the benches
read (`status` and `err` are never looked at). -/
structure TransactionStatus where
  slot : Slot
  confirmations : Option Nat
  confirmationStatus? : Option TransactionConfirmationStatus
deriving DecidableEq, Repr

namespace TransactionStatus

/-- `TransactionStatus::satisfies_commitment`.  Without a `confirmation_status`
(older nodes) a status is confirmed when it has more than one confirmation or
none counted at all. -/
def satisfiesCommitment (s : TransactionStatus) : CommitmentLevel → Bool
  | .finalized => s.confirmations.isNone
  | .confirmed =>
    match s.confirmationStatus? with
    | some status => status != .processed
    | none => s.confirmations.all (1 < ·)
  | .processed => true

/-- `TransactionStatus::confirmation_status()`: the reported status, or the one
the confirmation count implies. -/
def confirmationStatus (s : TransactionStatus) : TransactionConfirmationStatus :=
  match s.confirmationStatus?, s.confirmations with
  | some status, _ => status
  | none, none => .finalized
  | none, some c => if 0 < c then .confirmed else .processed

end TransactionStatus

/-- A signed `Transaction`; the benches read it only through `get_signature()`. -/
structure Transaction (Sig : Type) where
  signature : Sig

/-- `RpcSendTransactionConfig` (its `encoding` is `None` wherever the benches
build one, and is left out). -/
structure RpcSendTransactionConfig where
  skipPreflight : Bool
  preflightCommitment : Option CommitmentLevel
  maxRetries : Option Nat
  minContextSlot : Option Slot
deriving DecidableEq, Repr

/-- The `send_config` of `send_and_confirm_bulk_transactions` and of
`confirmation_slot::send_transaction`: no preflight, three endpoint retries. -/
def sendConfig : RpcSendTransactionConfig :=
  { skipPreflight := true, preflightCommitment := none, maxRetries := some 3,
    minContextSlot := none }

/-- `ConfirmationResponseFromRpc`. -/
inductive ConfirmationResponseFromRpc where
  | sendError (e : ErrorKind)
  /-- Slot sent at, slot confirmed in, its confirmation status, time since polling began. -/
  | success (sentSlot confirmedSlot : Slot) (status : TransactionConfirmationStatus)
      (elapsed : Duration)
  | timeout (elapsed : Duration)
deriving DecidableEq, Repr

end LiteRpc.Bench
