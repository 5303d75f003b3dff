/-!
# Powers

A power of numbers is the one of the core library in every module. Algebra has powers in every monoid, and
takes its own where both are in scope.
-/

namespace TokenAuthority

attribute [instance (20000), default_instance 20000] instPowNat

end TokenAuthority
