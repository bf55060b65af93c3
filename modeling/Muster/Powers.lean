/-!
# Powers — which powers are meant

A library that knows powers of whatever can be multiplied brings its own for naturals and integers.
Here they are those of the core library throughout, so that what is said with them does not depend
on what else is imported.
-/

namespace Muster

attribute [scoped instance (2000)] instPowNat

attribute [default_instance 20000] instPowNat

end Muster
