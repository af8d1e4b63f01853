import ShimSpin.Endings

namespace ShimSpin
set_option autoImplicit true

variable {Addr : Type} {H : Host Addr} {ctx : RuntimeContext} {app app' : LockedApp} {src : Source}
  {w : World} {E : Env} {value : String}

end ShimSpin
