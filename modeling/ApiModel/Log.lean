/-! # Log

What a run tells its user apart from its result, in the order in which it happens.
-/

namespace ApiModel

inductive LogLevel where
  | info
  | warning
  deriving DecidableEq, Repr

structure LogEntry where
  level : LogLevel
  message : String
  deriving DecidableEq, Repr

end ApiModel
