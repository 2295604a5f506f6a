import AccessControl.Proofs.Results
import AccessControl.Scripted

namespace AccessControl

namespace Scripted

/-- Adds one step to a scripted domain and its factory to the registry. -/
def extend (built : DomainConfig × Registry Module) (step : (ControlFlag × Outcome) × Nat) :
    DomainConfig × Registry Module :=
  (built.1.withModule (.plain (stepId step.2) step.1.1),
    built.2.register (stepId step.2) fun _ => pure (Scripted.step (stepId step.2) step.1.2))

end Scripted

end AccessControl
