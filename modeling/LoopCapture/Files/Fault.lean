/-!
Why files cannot be read or written.
-/

set_option autoImplicit false

namespace LoopCapture

inductive FileFault where
  | missing
  | isDirectory
  | notDirectory
  | nameTooLong
  | nulInPath
  | other (reason : String)
  deriving DecidableEq, Repr

def FileFault.reason : FileFault → String
  | .missing => "No such file or directory"
  | .isDirectory => "Is a directory"
  | .notDirectory => "Not a directory"
  | .nameTooLong => "File name too long"
  | .nulInPath => "embedded null byte"
  | .other reason => reason

abbrev FileContents := Except FileFault (List UInt8)

end LoopCapture
