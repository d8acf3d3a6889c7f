import ApiModel.Http.Message

/-! # Hosts

What a run needs from outside: files to read and to write, and answers to HTTP requests.
-/

namespace ApiModel

inductive FileFault where
  | notFound
  | notDirectory
  | isDirectory
  | badName
  | other (reason : String)
  deriving DecidableEq, Repr

def FileFault.message : FileFault → String
  | notFound => "no such file or directory"
  | notDirectory => "not a directory"
  | isDirectory => "is a directory"
  | badName => "file name too long"
  | other reason => reason

structure Host (m : Type → Type) where
  readFile : String → m (Except FileFault String)
  /-- Writes a text to a file; missing directories above it are made. -/
  writeFile : String → String → m (Except FileFault Unit)
  fetch : Url → m (Except String Http.Response)

end ApiModel
