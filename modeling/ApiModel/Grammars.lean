import ApiModel.Pattern.Validity
import ApiModel.Resolution.State
import ApiModel.Url.Parser

/-! # Grammars of patterns and URLs

What programs take for a regular expression and for a URL. Resolution works alike with any other
grammars. In these the size of a compiled pattern is an estimate, and of characters beyond ASCII a
domain is only asked what the letter tables say.
-/

namespace ApiModel.Resolution

instance : Grammars where
  isPattern := Pattern.isValid
  urlFault? text :=
    match Url.parse text with
    | .ok _ => none
    | .error fault => some fault.message

end ApiModel.Resolution
