/-!
# Power — one reading of powers

A library of monoids brings a power of its own.  **A power of natural numbers or integers is the core
library's wherever it is written**, so a definition means the same with monoids in scope and without.
-/

namespace Reckon

attribute [instance (2000), default_instance (high + 1)] instPowNat

end Reckon
